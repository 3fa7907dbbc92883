import ContainerAudit.Proofs.Compose.Provenance
import ContainerAudit.Proofs.Rule.Service
import ContainerAudit.Proofs.Text.Blank
import ContainerAudit.Proofs.Text.Occurrence

/-!
# The two forms of a volume

A volume is written as one text, `source:target` with options behind it if there are any, or as a
map with a key for each of its parts.  The text is cut at its colons, and how many pieces there are
decides what they mean; of the map the values are looked up and brought into shape.  Both give the
same mount (`Volume.Written.exists_mount`).  A list of volumes is read one by one, each as its value
tells (`readMounts_of_built`), so that a rule which goes by the source of a mount reports the same
places of a list, whichever form each of its entries has (`written_mounts_agree`).
-/

namespace ContainerAudit.Compose

open ContainerAudit.Text (splitAt joinWith)
open ContainerAudit.Yaml (Graph)

/-- What a volume is to be: where it comes from, where it goes, and its options, if it is given with
any. -/
structure Volume where
  source : List Char
  target : List Char
  options : Option (List (List Char))

namespace Volume

/-- The parts of the volume do not hold the characters that separate them. -/
structure Plain (v : Volume) : Prop where
  source_ne_nil : v.source ≠ []
  target_ne_nil : v.target ≠ []
  source_colon : ':' ∉ v.source
  target_colon : ':' ∉ v.target
  options_colon : ∀ options ∈ v.options, ∀ option ∈ options, ':' ∉ option
  options_comma : ∀ options ∈ v.options, ∀ option ∈ options, ',' ∉ option

def isReadOnly (v : Volume) : Bool :=
  v.options.any (·.contains "ro".toList)

def short (v : Volume) : List Char :=
  v.source ++ ':' :: match v.options with
    | some options => v.target ++ ':' :: joinWith [','] options
    | none => v.target

/-- The value is one of the forms of the volume.  In the long form the key for read-only mounts may
be missing if the volume is not read-only. -/
inductive Written (v : Volume) : Value → Prop
  | short : Written v (.text (String.ofList v.short))
  | long {entries : List (Value × Value)}
      (source : (Value.map entries).getText? "source" = some (.text (String.ofList v.source)))
      (target : (Value.map entries).getText? "target" = some (.text (String.ofList v.target)))
      (readOnly : (Value.map entries).getText? "read_only" = some (.bool v.isReadOnly) ∨
        v.isReadOnly = false ∧ (Value.map entries).getText? "read_only" = none) :
      Written v (.map entries)

/-- The mount is what the volume is to be. -/
structure Gives (v : Volume) (m : Mount) : Prop where
  source : m.source = String.ofList v.source
  target : m.target = String.ofList v.target
  readOnly : m.readOnly = v.isReadOnly

end Volume

section Volume

variable {v : Volume} (h : v.Plain)

include h

theorem Volume.Plain.gives_ofShort (line : Nat) :
    v.Gives (.ofShort (String.ofList v.short) line) := by
  obtain ⟨source, target, options⟩ := v
  cases options with
  | none =>
      have hsplit : splitAt ':' (source ++ ':' :: target) = [source, target] := by
        rw [Text.splitAt_append_cons h.source_colon, Text.splitAt_of_notMem h.target_colon]
      rw [Mount.ofShort, String.toList_ofList, Volume.short, hsplit]
      exact ⟨rfl, rfl, rfl⟩
  | some options =>
      have hmode : ':' ∉ joinWith [','] options := by
        intro hcolon
        rcases Text.mem_joinWith hcolon with hcomma | ⟨option, hoption, hcolon⟩
        · exact absurd hcomma (by decide)
        · exact h.options_colon options rfl option hoption hcolon
      have hsplit : splitAt ':' (source ++ ':' :: (target ++ ':' :: joinWith [','] options)) =
          [source, target, joinWith [','] options] := by
        rw [Text.splitAt_append_cons h.source_colon, Text.splitAt_append_cons h.target_colon,
          Text.splitAt_of_notMem hmode]
      rw [Mount.ofShort, String.toList_ofList, Volume.short, hsplit]
      refine ⟨rfl, rfl, ?_⟩
      show (splitAt ',' (joinWith [','] options)).contains _ = options.contains _
      cases options with
      | nil => rfl
      | cons option options =>
          rw [Text.splitAt_joinWith (by simp) (h.options_comma _ rfl)]
          rfl

theorem Volume.Plain.gives_ofLong {value : Value}
    (hsource : value.getText? "source" = some (.text (String.ofList v.source)))
    (htarget : value.getText? "target" = some (.text (String.ofList v.target)))
    (hreadOnly : value.getText? "read_only" = some (.bool v.isReadOnly) ∨
      v.isReadOnly = false ∧ value.getText? "read_only" = none) (line : Nat) :
    ∃ m, Mount.ofLong value line = .ok m ∧ v.Gives m ∧ m.line = line := by
  have hpresent : ∀ {s : List Char}, s ≠ [] →
      presentText (some (.text (String.ofList s))) = .ok (String.ofList s) := by
    intro s hs
    simp [presentText, Value.isMissing, Value.plain, hs]
  have hswitch : ∃ state, switchOf ((value.getText? "read_only").getD .null) = .ok state ∧
      (state == some true) = v.isReadOnly := by
    rcases hreadOnly with hvalue | ⟨hno, hvalue⟩
    · refine ⟨some v.isReadOnly, by rw [hvalue]; rfl, ?_⟩
      cases v.isReadOnly <;> rfl
    · exact ⟨none, by rw [hvalue]; rfl, hno.symm⟩
  obtain ⟨state, hstate, hsame⟩ := hswitch
  rw [Mount.ofLong, hsource, htarget, hpresent h.source_ne_nil, hpresent h.target_ne_nil, hstate]
  exact ⟨_, rfl, ⟨rfl, rfl, hsame⟩, rfl⟩

/-- Whatever its form, a volume is read as the mount that it is to be, on its line. -/
theorem Volume.Written.exists_mount {value : Value} (hwritten : v.Written value) (line : Nat) :
    ∃ m, Mount.ofValue value line = .ok (some m) ∧ v.Gives m ∧ m.line = line := by
  cases hwritten with
  | short =>
      refine ⟨_, rfl, h.gives_ofShort line, ?_⟩
      rw [Mount.ofShort]
      split <;> rfl
  | long hsource htarget hreadOnly =>
      obtain ⟨m, hm, hgives⟩ := h.gives_ofLong hsource htarget hreadOnly line
      exact ⟨m, by rw [Mount.ofValue, hm]; rfl, hgives⟩

end Volume

/-! ## Lists of volumes -/

/-- The mounts of a list of values, each on its line. -/
def mountsOf : List Value → List Nat → Except Value.TextError (List Mount)
  | value :: values, line :: lines => do
    let mount ← Mount.ofValue value line
    let mounts ← mountsOf values lines
    return mount.toList ++ mounts
  | _, _ => .ok []

theorem liftText_bind {α β : Type} (x : Except Value.TextError α)
    (f : α → Except Value.TextError β) :
    liftText (x >>= f) = liftText x >>= fun a => liftText (f a) := by
  cases x <;> rfl

/-- The volumes of a service are read as the values of their nodes tell, each on the line of its
node. -/
theorem readMounts_of_built {items : List Nat} {g g' : Graph} {values : List Value}
    (h : Graph.buildItems Graph.value items g = .ok (values, g')) :
    readMounts items g =
      liftText (mountsOf values (items.map g.lineOf)) >>= fun mounts => pure (mounts, g') := by
  induction items generalizing g values with
  | nil =>
      cases h
      rfl
  | cons item rest ih =>
      obtain ⟨⟨v, g₁⟩, hvalue, h⟩ := exists_of_bind_eq_ok h
      obtain ⟨⟨vs, g₂⟩, hrest, h⟩ := exists_of_bind_eq_ok h
      cases h
      have hlines : rest.map g₁.lineOf = rest.map g.lineOf :=
        List.map_congr_left fun id _ => (Graph.reshapes_of_value hvalue).lineOf id
      rw [readMounts, hvalue]
      change (liftText (Mount.ofValue v (g₁.lineOf item)) >>= fun mount =>
        readMounts rest g₁ >>= fun r => pure (mount.toList ++ r.1, r.2)) = _
      rw [ih hrest, hlines, (Graph.reshapes_of_value hvalue).lineOf, List.map_cons, mountsOf,
        liftText_bind, bind_assoc]
      refine congrArg (_ >>= ·) (funext fun mount => ?_)
      rw [liftText_bind, bind_assoc, bind_assoc]
      rfl

/-- Each volume of the list gives the mount at its place, on its line. -/
theorem forall₂_mountsOf {vs : List Volume} (hplain : ∀ v ∈ vs, v.Plain) {values : List Value}
    (hwritten : List.Forall₂ Volume.Written vs values) {lines : List Nat}
    (hlines : lines.length = vs.length) :
    ∃ mounts, mountsOf values lines = .ok mounts ∧
      List.Forall₂ (fun place m => place.1.Gives m ∧ m.line = place.2) (vs.zip lines) mounts := by
  induction hwritten generalizing lines with
  | nil => exact ⟨[], rfl, .nil⟩
  | @cons v value vs values hvalue hvalues ih =>
      obtain ⟨line, lines, rfl⟩ := List.exists_cons_of_length_eq_add_one hlines
      obtain ⟨hv, hvs⟩ := List.forall_mem_cons.mp hplain
      obtain ⟨m, hm, hgives⟩ := hvalue.exists_mount hv line
      obtain ⟨mounts, hmounts, hrest⟩ := ih hvs (Nat.succ.inj hlines)
      refine ⟨m :: mounts, ?_, .cons hgives hrest⟩
      rw [mountsOf, hm, hmounts]
      rfl

end ContainerAudit.Compose

namespace ContainerAudit.Rule

open ContainerAudit.Compose (Volume Service Mount mountsOf readMounts)
open ContainerAudit.Yaml (Graph)

def socketPlaces (sockets : List String) (vs : List Volume) : List Nat :=
  (List.range vs.length).filter fun k =>
    vs[k]?.any fun v => mountsSocket sockets (String.ofList v.source)

def socketMatch (s : Service) (m : Mount) : Match :=
  { line := m.line, text := m.raw, message := some (serviceName s ++ " mounts the Docker socket.") }

/-- The elements that pass a test, by their places. -/
theorem map_filter_eq_places {α β : Type} (test : α → Bool) (f : α → β) (l : List α) :
    (l.filter test).map f =
      ((List.range l.length).filter fun k => l[k]?.any test).filterMap fun k => l[k]?.map f := by
  induction l with
  | nil => rfl
  | cons a l ih =>
      rw [List.length_cons, List.range_succ_eq_map, List.filter_cons, List.filter_cons,
        List.filter_map, List.getElem?_cons_zero, Option.any_some]
      have hrest : (List.map Nat.succ ((List.range l.length).filter
          ((fun k => (a :: l)[k]?.any test) ∘ Nat.succ))).filterMap (fun k => (a :: l)[k]?.map f) =
          (l.filter test).map f := by
        rw [ih, List.filterMap_map]
        rfl
      split
      · rw [List.map_cons, List.filterMap_cons, hrest]
        rfl
      · rw [hrest]

/-- **Both forms of a volume count alike.**  Volumes whose parts do not hold the characters that
separate them are read, in any mix of forms, as mounts with their source, their target and their
being read-only.  The rule on mounts of the socket reports the mounts at those places of the list
whose source has a socket in it, whatever the forms. -/
theorem written_mounts_agree {vs : List Volume} (hplain : ∀ v ∈ vs, v.Plain) {lines : List Nat}
    (hlines : lines.length = vs.length) {values : List Value}
    (hwritten : List.Forall₂ Volume.Written vs values) :
    (Registry.standard.get? "COMPOSE-SEC-002").map Rule.check = some (.ofCompose socketMount) ∧
    ∃ mounts, mountsOf values lines = .ok mounts ∧
      (∀ items g g', Graph.buildItems Graph.value items g = .ok (values, g') →
        items.map g.lineOf = lines → readMounts items g = .ok (mounts, g')) ∧
      List.Forall₂ (fun place m => place.1.Gives m ∧ m.line = place.2) (vs.zip lines) mounts ∧
      ∀ (s : Service) (p : Patterns), s.volumes = mounts →
        socketMount ⟨[s]⟩ p = (socketPlaces (p.entries .dockerSocketPaths) vs).filterMap fun k =>
          s.volumes[k]?.map (socketMatch s) := by
  obtain ⟨mounts, hread, hmounts⟩ := Compose.forall₂_mountsOf hplain hwritten hlines
  refine ⟨rfl, mounts, hread, fun items g g' hbuilt hitems => ?_, hmounts, fun s p hs => ?_⟩
  · rw [Compose.readMounts_of_built hbuilt, hitems, hread]
    rfl
  let sockets := p.entries .dockerSocketPaths
  have hfound : socketMount ⟨[s]⟩ p =
      (s.volumes.filter fun m => mountsSocket sockets m.source).map (socketMatch s) := by
    simp [socketMount, eachService, Compose.Document.sorted, socketMatch, sockets]
  -- Whether a place is reported can be read off the volumes as off the mounts.
  have hverdicts : s.volumes.map (fun m => mountsSocket sockets m.source) =
      vs.map fun v => mountsSocket sockets (String.ofList v.source) := by
    have hfst : (vs.zip lines).map Prod.fst = vs := List.map_fst_zip (Nat.le_of_eq hlines.symm)
    rw [hs, ← hfst, List.map_map, eq_comm, ← List.forall₂_eq_eq_eq, List.forall₂_map_left_iff,
      List.forall₂_map_right_iff]
    exact hmounts.imp fun place m hplace => by rw [Function.comp_apply, hplace.1.source]
  have hplaces : (List.range s.volumes.length).filter
      (fun k => s.volumes[k]?.any fun m => mountsSocket sockets m.source) =
      socketPlaces sockets vs := by
    have hlength : s.volumes.length = vs.length := by
      simpa using congrArg List.length hverdicts
    rw [hlength]
    refine List.filter_congr fun k _ => ?_
    have hat := congrArg (fun verdicts => verdicts[k]?.any fun verdict => verdict) hverdicts
    simpa only [List.getElem?_map, Option.any_map] using hat
  rw [hfound, map_filter_eq_places, hplaces]

/-- A mount of the socket in both forms, with another volume between them: the two are reported,
each with the text of its form. -/
theorem written_mounts_agree_on_socket :
    let socket : Volume := ⟨"/run/docker.sock".toList, "/s".toList, some ["z".toList, "ro".toList]⟩
    let data : Volume := ⟨"data".toList, "/d".toList, none⟩
    let values : List Value := [.text "/run/docker.sock:/s:z,ro",
      .map [(.text "target", .text "/d"), (.text "source", .text "data")],
      .map [(.text "type", .text "bind"), (.text "read_only", .bool true),
        (.text "target", .text "/s"), (.text "source", .text "/run/docker.sock")]]
    List.Forall₂ Volume.Written [socket, data, socket] values ∧
    ∃ mounts, mountsOf values [3, 4, 5] = .ok mounts ∧
      (socketMount ⟨[{ name := "web", line := 2, volumes := mounts }]⟩ .standard).map
          (fun m => (m.line, m.text)) =
        [(3, "/run/docker.sock:/s:z,ro"), (5, "/run/docker.sock:/s")] := by
  intro socket data values
  have hsocket : socket.Plain :=
    ⟨by decide, by decide, by decide, by decide, by decide, by decide⟩
  have hdata : data.Plain :=
    ⟨by decide, by decide, by decide, by decide, by simp [data], by simp [data]⟩
  have hplain : ∀ v ∈ [socket, data, socket], v.Plain := by
    simp only [List.forall_mem_cons, List.not_mem_nil, IsEmpty.forall_iff, implies_true, and_true]
    exact ⟨hsocket, hdata, hsocket⟩
  have hwritten : List.Forall₂ Volume.Written [socket, data, socket] values :=
    .cons .short (.cons (.long rfl rfl (.inr ⟨rfl, rfl⟩))
      (.cons (.long rfl rfl (.inl rfl)) .nil))
  have hlines : [3, 4, 5].length = [socket, data, socket].length := rfl
  obtain ⟨-, mounts, hmounts, -, -, hfound⟩ := written_mounts_agree hplain hlines hwritten
  have hplaces : socketPlaces (Patterns.standard.entries .dockerSocketPaths)
      [socket, data, socket] = [0, 2] := by decide
  refine ⟨hwritten, mounts, hmounts, ?_⟩
  rw [hfound _ .standard rfl, hplaces]
  cases hmounts
  decide

end ContainerAudit.Rule
