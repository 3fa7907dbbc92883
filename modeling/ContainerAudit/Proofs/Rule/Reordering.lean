import ContainerAudit.Proofs.Compose.Reordering
import ContainerAudit.Proofs.Rule.Service

/-!
# Matches do not depend on the order of the file

The rules on services go through them in the order of their names and, in each, through sets that
are sorted.  So what they find is the same, in the same order, if a file lists its services in
another order, or the items of a set (`check_ignores_order`).  They find the same in services that
are alike (`foundFor_alike`), and no two services share a name, so that sorting leaves only one
order (`mergeSort_eq_of_perm`).

The file must be tame, and what is put into another order must not be looked at otherwise.  Without
one of these conditions rules may find more or less, or in another order, or the file may not be
read at all (`order_matters_untamed`).
-/

namespace ContainerAudit

open ContainerAudit.Compose

namespace Rule

/-! ## Services that are alike -/

section Alike

variable {s s' : Service} (h : s.Alike s')

include h

theorem serviceName_alike : serviceName s' = serviceName s := by
  rw [serviceName, serviceName, h.name]

theorem normalOptions_alike : normalOptions s' = normalOptions s := by
  have hitems : s'.securityOpt = s.securityOpt := h.items .securityOpt
  rw [normalOptions, normalOptions, hitems]

theorem optionMatches_alike (bad : List String) {message : Service → String → String}
    (hmessage : ∀ option, message s' option = message s option) :
    optionMatches bad message s' = optionMatches bad message s := by
  rw [optionMatches, optionMatches, normalOptions_alike h]
  simp only [h.lineOfItem, hmessage]

theorem namespaceMatches_alike (key label : String) {f : WordField} :
    namespaceMatches key label (s'.word f) s' = namespaceMatches key label (s.word f) s := by
  rw [namespaceMatches, namespaceMatches, h.word, h.lineOf, serviceName_alike h]

/-- The rules find the same in services that are alike. -/
theorem foundFor_alike : ∀ rule ∈ serviceRules, ∀ p, rule.foundFor p s' = rule.foundFor p s := by
  have hname := serviceName_alike h
  simp only [serviceRules, List.forall_mem_cons, List.not_mem_nil, IsEmpty.forall_iff, implies_true,
    and_true]
  refine ⟨fun p => ?_, fun p => ?_, fun p => ?_, fun p => ?_, fun p => ?_, fun p => ?_, fun p => ?_,
    fun p => ?_, fun p => ?_⟩
  · rw [foundFor_eq rfl, foundFor_eq rfl]
    have hprivileged : s'.privileged = s.privileged := h.switch .privileged
    simp only [hprivileged, h.lineOf, hname]
  · rw [foundFor_eq rfl, foundFor_eq rfl]
    simp only [h.volumes, hname]
  · rw [foundFor_eq rfl, foundFor_eq rfl]
    exact optionMatches_alike h _ fun option => by rw [hname]
  · rw [foundFor_eq rfl, foundFor_eq rfl]
    have hmode : s'.networkMode = s.networkMode := h.word .networkMode
    simp only [hmode, h.lineOf, hname]
  · rw [foundFor_eq rfl, foundFor_eq rfl]
    have hadded : s'.capAdd = s.capAdd := h.items .capAdd
    simp only [hadded, h.lineOfItem, hname]
  · rw [foundFor_eq rfl, foundFor_eq rfl]
    exact congrArg₂ (· ++ ·) (namespaceMatches_alike h "pid" "PID" (f := .pid))
      (namespaceMatches_alike h "ipc" "IPC" (f := .ipc))
  · rw [foundFor_eq rfl, foundFor_eq rfl]
    simp only [normalOptions_alike h, h.name, h.lineOf, hname]
  · rw [foundFor_eq rfl, foundFor_eq rfl]
    exact optionMatches_alike h _ fun option => by rw [hname]
  · rw [foundFor_eq rfl, foundFor_eq rfl]
    have hreadOnly : s'.readOnly = s.readOnly := h.switch .readOnly
    simp only [hreadOnly, h.lines, h.lineOf, hname]

end Alike

/-! ## The order of names -/

section Sorted

variable {β : Type} (f : Service → List β)

theorem flatMap_sorted (found : List Service) :
    (Document.sorted ⟨found⟩).flatMap f =
      ((found.map fun s => (s.name, f s)).mergeSort fun a b => decide (a.1 ≤ b.1)).flatMap
        (·.2) := by
  rw [← List.map_mergeSort (r := fun s t : Service => decide (s.name ≤ t.name)) fun _ _ _ _ => rfl,
    List.flatMap_map]
  rfl

/-- What is found in each service comes in the same order. -/
theorem flatMap_sorted_eq {found found' : List Service} (h : SameServices found found')
    (hf : ∀ s s' : Service, s.Alike s' → f s' = f s) :
    (Document.sorted ⟨found'⟩).flatMap f = (Document.sorted ⟨found⟩).flatMap f := by
  obtain ⟨alone, alone', hnodup, hperm, hfound, hfound'⟩ := h
  have hpair : ∀ s s' : Service, s.Alike s' → (s'.name, f s') = (s.name, f s) :=
    fun s s' hs => by rw [hs.name, hf s s' hs]
  rw [flatMap_sorted, flatMap_sorted, Alike.map_eq hpair hfound, Alike.map_eq hpair hfound']
  refine congrArg (List.flatMap _) (mergeSort_eq_of_perm Prod.fst (hperm.map _) ?_)
  refine fun a ha b hb => List.inj_on_of_nodup_map ?_ ha hb
  rwa [List.map_map]

end Sorted

/-! ## Compose files -/

/-- The services of the file are the entries of a node. -/
def ServicesAt (d : Yaml.Document) (services : Nat) : Prop :=
  lookupNode d.graph d.root "services" = some services ∧
    (d.graph.node services).content.shape = .mapping

instance (d : Yaml.Document) (services : Nat) : Decidable (ServicesAt d services) :=
  inferInstanceAs (Decidable (_ ∧ _))

theorem ofYaml_eq {d : Yaml.Document} {services : Nat} (h : ServicesAt d services) :
    ofYaml d =
      (readServices services (d.graph.entries services) [] d.graph).map Document.mk := by
  obtain ⟨hlookup, hmap⟩ := h
  obtain ⟨entries, hentries⟩ := Yaml.Graph.eq_mapping_of_shape hmap
  have hnull : ¬d.graph.isNull services = true := by
    rw [Yaml.Graph.isNull, hmap]
    simp
  obtain ⟨entry, hentry, -⟩ := Option.map_eq_some_iff.mp hlookup
  have hroot := Yaml.Graph.shape_eq_mapping_of_mem (List.mem_of_find?_eq_some hentry)
  obtain ⟨tops, htops⟩ := Yaml.Graph.eq_mapping_of_shape hroot
  simp only [ofYaml, htops, hlookup, if_neg hnull, hentries, Yaml.Graph.entries]

/-- All rules on services find the same in two files, in the same order. -/
def Agree (file file' : Document) : Prop :=
  ∀ rule ∈ serviceRules, ∀ path p, ∃ found, rule.check ⟨path, .compose file⟩ p = .ok found ∧
    rule.check ⟨path, .compose file'⟩ p = .ok found

/-- **The order of a file does not matter to the rules.**  Two tame files with the same services in
another order, and with the items of their sets in another order, are both read, and the rules on
services find the same in them and in the same order, or neither is read. -/
theorem check_ignores_order {d d' : Yaml.Document} {services : Nat} (hd : ServicesAt d services)
    (hd' : ServicesAt d' services) (ht : Tame d.graph services)
    (hr : Reordered d.graph d'.graph services) (hnames : DistinctNames d.graph services) :
    Parallel Agree (ofYaml d) (ofYaml d') := by
  rw [ofYaml_eq hd, ofYaml_eq hd']
  refine (readServices_reordered ht hr hnames rfl rfl).map fun found found' hsame => ?_
  intro rule hrule path p
  have hper := serviceRules_perService rule hrule
  refine ⟨_, hper.check_eq p path _, ?_⟩
  rw [hper.check_eq p path, flatMap_sorted_eq _ hsame fun s s' h => foundFor_alike h rule hrule p]

/-- Two services with capabilities that one of them merges and the other stands for.  Each key and
each item has a line of its own. -/
def merging : Yaml.Document :=
  ⟨#[⟨.map, .start, .mapping [(1, 2), (3, 4)]⟩,
      ⟨.str, .start, .scalar "x-base"⟩, ⟨.map, ⟨8, 0, 8⟩, .mapping [(5, 6)]⟩,
      ⟨.str, ⟨57, 4, 0⟩, .scalar "services"⟩, ⟨.map, ⟨69, 5, 2⟩, .mapping [(9, 10), (11, 2)]⟩,
      ⟨.str, ⟨16, 1, 2⟩, .scalar "cap_add"⟩, ⟨.seq, ⟨29, 2, 4⟩, .sequence [7, 8]⟩,
      ⟨.str, ⟨31, 2, 6⟩, .scalar "SYS_ADMIN"⟩, ⟨.str, ⟨47, 3, 6⟩, .scalar "NET_ADMIN"⟩,
      ⟨.str, ⟨69, 5, 2⟩, .scalar "web"⟩, ⟨.map, ⟨78, 6, 4⟩, .mapping [(12, 2), (13, 14)]⟩,
      ⟨.str, ⟨111, 8, 2⟩, .scalar "db"⟩, ⟨.merge, ⟨78, 6, 4⟩, .scalar "<<"⟩,
      ⟨.str, ⟨92, 7, 4⟩, .scalar "privileged"⟩, ⟨.bool, ⟨104, 7, 16⟩, .scalar "true"⟩], 0⟩

/-- The file with a node whose parts come in reverse. -/
def reversed (id : Nat) (d : Yaml.Document) : Yaml.Document :=
  { d with nodes := d.nodes.modify id fun n => { n with content := match n.content with
    | .mapping entries => .mapping entries.reverse
    | .sequence items => .sequence items.reverse
    | .scalar text => .scalar text } }

theorem merging_covers :
    Covers merging.graph 4 [2, 10] [5, 7, 8, 9, 11, 12, 13, 14] where
  service := by decide
  key := by decide
  merge := by decide
  field := by
    have hset : NamesSet merging.graph 5 := ⟨_, _, _, .capAdd, rfl, rfl, rfl⟩
    have hfields : ∀ source ∈ [2, 10], ∀ entry ∈ merging.graph.entries source,
        merging.graph.isMerge entry = false →
          entry.1 = 5 ∨ entry.2 ∈ [5, 7, 8, 9, 11, 12, 13, 14] := by
      decide
    intro source hsource entry hentry hmerge
    refine (hfields source hsource entry hentry hmerge).imp_left fun hkey => ?_
    rwa [hkey]
  item := by decide
  scalar := by decide
  plain := by decide

/-- The file with its services and the capabilities in reverse. -/
def mergingReversed : Yaml.Document :=
  reversed 6 (reversed 4 merging)

theorem merging_reordered : Reordered merging.graph mergingReversed.graph 4 where
  size := rfl
  entries := by decide
  same := by
    intro id hid
    have hsame : ∀ id ∈ [5, 7, 8, 9, 11, 12, 13, 14] ++ [2, 10],
        mergingReversed.graph.node id = merging.graph.node id := by
      decide
    exact hsame id (merging_covers.seen hid)
  listed := by
    rintro list ⟨entry, ⟨source, hsource, hentry, hmerge⟩, -, rfl⟩
    have hperm : ∀ source ∈ [2, 10], ∀ entry ∈ merging.graph.entries source,
        merging.graph.isMerge entry = false →
          (listed mergingReversed.graph entry.2).Perm (listed merging.graph entry.2) ∧
          (listed mergingReversed.graph entry.2 = listed merging.graph entry.2 ∨ entry.2 = 6) := by
      decide
    refine (hperm source (merging_covers.defines hsource) entry hentry hmerge).imp_right
      (Or.imp_right fun hlist => ?_)
    rw [hlist]
    rintro items ⟨⟩
    decide
  items := by
    rintro list ⟨entry, ⟨source, hsource, hentry, hmerge⟩, -, rfl⟩
    have hsame : ∀ source ∈ [2, 10], ∀ entry ∈ merging.graph.entries source,
        merging.graph.isMerge entry = false → ∀ item ∈ listed merging.graph entry.2,
          mergingReversed.graph.node item = merging.graph.node item := by
      decide
    exact hsame source (merging_covers.defines hsource) entry hentry hmerge

theorem check_ignores_order_of_merging :
    ∃ file file', ofYaml merging = .ok file ∧ ofYaml mergingReversed = .ok file' ∧
      file.services.map (·.name) = ["web", "db"] ∧ file'.services.map (·.name) = ["db", "web"] ∧
      Agree file file' := by
  have hservices : ServicesAt merging 4 ∧ ServicesAt mergingReversed 4 :=
    ⟨⟨by decide, by decide⟩, ⟨by decide, by decide⟩⟩
  have hviews : (ofYaml merging).toOption.map (fun file => file.services.map (·.name)) =
        some ["web", "db"] ∧
      (ofYaml mergingReversed).toOption.map (fun file => file.services.map (·.name)) =
        some ["db", "web"] := by
    decide +kernel
  have hagree := @check_ignores_order merging mergingReversed 4 hservices.1 hservices.2
    merging_covers.tame merging_reordered (.of_nodup (by decide))
  rcases Parallel.cases hagree with ⟨file, file', hfile, hfile', hsame⟩ | ⟨e, e', he, -⟩
  · rw [hfile, hfile'] at hviews
    exact ⟨file, file', hfile, hfile', Option.some.inj hviews.1, Option.some.inj hviews.2, hsame⟩
  · rw [he] at hviews
    cases hviews.1

/-! ## Files that are not tame -/

theorem Agree.found_eq {file file' : Document} (h : Agree file file') {rule : Rule}
    (hrule : rule ∈ serviceRules) (p : Patterns) :
    file.sorted.flatMap (rule.foundFor p) = file'.sorted.flatMap (rule.foundFor p) := by
  have hper := serviceRules_perService rule hrule
  obtain ⟨found, hfound, hfound'⟩ := h rule hrule "" p
  rw [hper.check_eq p ""] at hfound hfound'
  exact (Except.ok.inj hfound).trans (Except.ok.inj hfound').symm

def socketTexts (s : Service) : List String :=
  (s.volumes.filter fun m =>
    mountsSocket (Patterns.standard.entries .dockerSocketPaths) m.source).map (·.raw)

section NotParallel

variable {x x' : Except Failure Document}

theorem not_parallel_of_error (h : x.isOk = true) (h' : x'.isOk = false) :
    ¬Parallel Agree x x' := by
  intro hsame
  rcases hsame.cases with ⟨file, file', rfl, rfl, -⟩ | ⟨e, e', rfl, rfl⟩
  · cases h'
  · cases h

/-- A service runs privileged in one file, and none in the other. -/
theorem not_parallel_of_privileged {found found' : List (Option Bool)}
    (h : x.toOption.map (·.services.map (·.privileged)) = some found)
    (h' : x'.toOption.map (·.services.map (·.privileged)) = some found')
    (hprivileged : some true ∈ found) (hnone : some true ∉ found') : ¬Parallel Agree x x' := by
  intro hsame
  rcases hsame.cases with ⟨file, file', rfl, rfl, hagree⟩ | ⟨e, e', rfl, rfl⟩
  · cases h
    cases h'
    have hrule : serviceRules[0] ∈ serviceRules := List.getElem_mem _
    have hempty : file'.sorted.flatMap (serviceRules[0].foundFor .standard) = [] := by
      refine List.flatMap_eq_nil_iff.mpr fun t ht => ?_
      have ht : t ∈ file'.services := List.mem_mergeSort.mp ht
      rw [foundFor_eq rfl, if_neg fun h => hnone (List.mem_map.mpr ⟨t, ht, h⟩)]
    obtain ⟨s, hs, hprivileged⟩ := List.mem_map.mp hprivileged
    have hsilent := List.flatMap_eq_nil_iff.mp
      ((hagree.found_eq hrule .standard).trans hempty) s (List.mem_mergeSort.mpr hs)
    rw [foundFor_eq rfl, if_pos hprivileged] at hsilent
    cases hsilent
  · cases h

/-- The one service mounts the socket in one order, and in another. -/
theorem not_parallel_of_socketTexts {mounts mounts' : List String}
    (h : x.toOption.map (·.services.map socketTexts) = some [mounts])
    (h' : x'.toOption.map (·.services.map socketTexts) = some [mounts']) (hne : mounts ≠ mounts') :
    ¬Parallel Agree x x' := by
  intro hsame
  rcases hsame.cases with ⟨⟨services⟩, ⟨services'⟩, rfl, rfl, hagree⟩ | ⟨e, e', rfl, rfl⟩
  · obtain ⟨s, rest, rfl, hs, hrest⟩ := List.map_eq_cons_iff.mp (Option.some.inj h)
    obtain rfl := List.map_eq_nil_iff.mp hrest
    obtain ⟨s', rest, rfl, hs', hrest⟩ := List.map_eq_cons_iff.mp (Option.some.inj h')
    obtain rfl := List.map_eq_nil_iff.mp hrest
    have hrule : serviceRules[1] ∈ serviceRules := List.getElem_mem _
    have htexts (s : Service) :
        (serviceRules[1].foundFor .standard s).map (·.text) = socketTexts s := by
      rw [foundFor_eq rfl, List.map_map]
      rfl
    have hfound := hagree.found_eq hrule .standard
    simp only [Document.sorted, List.mergeSort_singleton, List.flatMap_singleton] at hfound
    refine hne ?_
    rw [← hs, ← hs', ← htexts, ← htexts, hfound]
  · cases h

end NotParallel

def documentOf (text : String) : Yaml.Document :=
  match Yaml.Document.read (.ofText text.toList) with
  | .ok (some d) => d
  | _ => ⟨#[], 0⟩

/-- The text has services with names of their own under its second node, and the rules do not find
the same in it with the parts of a node in reverse. -/
def Varies (text : String) (id : Nat) : Prop :=
  ServicesAt (documentOf text) 2 ∧ DistinctNames (documentOf text).graph 2 ∧
    ¬Parallel Agree (ofYaml (documentOf text)) (ofYaml (reversed id (documentOf text)))

/-- The names of the services under the second node of a text. -/
def namesOf (text : String) : List (Option String) :=
  let g := (documentOf text).graph
  (g.entries 2).map fun e => (g.value e.1).toOption.bind (·.1.plain.toOption)

def mergedCycle : String :=
  "services: \x7ba: &A \x7b<<: [&B \x7b<<: [*A, \x7bprivileged: true\x7d]\x7d, " ++
    "\x7bprivileged: false\x7d]\x7d, b: *B\x7d\n"

/-- The key for a plain value in one service, and by itself in another. -/
def plainKey : String :=
  "services: \x7ba: \x7bx: \x7b? &k = : 1\x7d, privileged: true\x7d, b: \x7by: *k\x7d\x7d\n"

/-- A mapping with a merge, merged into one service and in a list of pairs in another. -/
def pairedMerge : String :=
  "services: \x7bb: \x7b<<: &m \x7b<<: \x7bk: v\x7d\x7d\x7d, " ++
    "a: \x7bx: !!pairs [*m], privileged: true\x7d\x7d\n"

/-- A list of capabilities that is a list of volumes too. -/
def sharedList : String :=
  "services: \x7ba: \x7bcap_add: &l ['/var/run/docker.sock:/a', '/var/run/docker.sock:/b'], " ++
    "volumes: *l\x7d\x7d\n"

/-- Without one of the conditions the order of the file matters: services that merge each other,
`=` as a key, a merge in a list of pairs, and a set that stands for something else as well. -/
theorem order_matters_untamed :
    Varies mergedCycle 2 ∧ Varies plainKey 2 ∧ Varies pairedMerge 2 ∧ Varies sharedList 6 := by
  refine ⟨?_, ?_, ?_, ?_⟩
  · have hread : ServicesAt (documentOf mergedCycle) 2 ∧ (namesOf mergedCycle).Nodup ∧
        (ofYaml (documentOf mergedCycle)).toOption.map (·.services.map (·.privileged)) =
          some [some true, some true] ∧
        (ofYaml (reversed 2 (documentOf mergedCycle))).toOption.map
          (·.services.map (·.privileged)) = some [some false, some false] := by
      decide +kernel
    obtain ⟨hservices, hnames, h, h'⟩ := hread
    exact ⟨hservices, .of_nodup hnames,
      not_parallel_of_privileged h h' (by decide) (by decide)⟩
  · have hread : ServicesAt (documentOf plainKey) 2 ∧ (namesOf plainKey).Nodup ∧
        (ofYaml (documentOf plainKey)).isOk = true ∧
        (ofYaml (reversed 2 (documentOf plainKey))).isOk = false := by
      decide +kernel
    obtain ⟨hservices, hnames, h, h'⟩ := hread
    exact ⟨hservices, .of_nodup hnames, not_parallel_of_error h h'⟩
  · have hread : ServicesAt (documentOf pairedMerge) 2 ∧ (namesOf pairedMerge).Nodup ∧
        (ofYaml (documentOf pairedMerge)).isOk = true ∧
        (ofYaml (reversed 2 (documentOf pairedMerge))).isOk = false := by
      decide +kernel
    obtain ⟨hservices, hnames, h, h'⟩ := hread
    exact ⟨hservices, .of_nodup hnames, not_parallel_of_error h h'⟩
  · have hread : ServicesAt (documentOf sharedList) 2 ∧ (namesOf sharedList).Nodup ∧
        (ofYaml (documentOf sharedList)).toOption.map (·.services.map socketTexts) =
          some [["/var/run/docker.sock:/a", "/var/run/docker.sock:/b"]] ∧
        (ofYaml (reversed 6 (documentOf sharedList))).toOption.map (·.services.map socketTexts) =
          some [["/var/run/docker.sock:/b", "/var/run/docker.sock:/a"]] := by
      decide +kernel
    obtain ⟨hservices, hnames, h, h'⟩ := hread
    exact ⟨hservices, .of_nodup hnames, not_parallel_of_socketTexts h h' (by decide)⟩

end Rule

end ContainerAudit
