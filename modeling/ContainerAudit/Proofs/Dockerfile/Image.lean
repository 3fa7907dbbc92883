import ContainerAudit.Dockerfile.Image
import Mathlib.Data.List.Basic

/-!
# Image references are read exactly

A reference is put together from its parts by `ImageRef.text`.  The parts can be told apart again if
no separator stands where it would be taken for another one (`ImageRef.Separated`), and reading a
text gives the only such parts that it can be put together from (`ImageRef.ofText_eq_iff`).  So
nothing is lost in reading, and the port of a registry, which has a slash behind it, stays with the
name.

The three separators are looked for from different ends: the digest starts at the first `@`, the tag
at the last colon, and only a slash behind that colon keeps it from being one.
-/

namespace ContainerAudit.Text

/-! ## Cutting at a separator -/

variable {sep : Char} {s before after : List Char}

theorem cutFirst_eq_none_iff : cutFirst sep s = none ↔ sep ∉ s := by
  induction s with
  | nil => simp [cutFirst]
  | cons c s ih =>
      by_cases hc : c = sep
      · simp [cutFirst, hc]
      · simp [cutFirst, hc, ih, Ne.symm hc]

theorem cutFirst_append_cons (h : sep ∉ before) (after : List Char) :
    cutFirst sep (before ++ sep :: after) = some (before, after) := by
  induction before with
  | nil => simp [cutFirst]
  | cons c before ih =>
      rw [List.mem_cons, not_or] at h
      obtain ⟨hc, hbefore⟩ := h
      rw [List.cons_append, cutFirst, if_neg (Ne.symm hc), ih hbefore]
      rfl

theorem cutFirst_eq_some_iff :
    cutFirst sep s = some (before, after) ↔ s = before ++ sep :: after ∧ sep ∉ before := by
  refine ⟨fun h => ?_, fun h => h.1 ▸ cutFirst_append_cons h.2 after⟩
  have hmem : sep ∈ s := by
    by_contra hno
    rw [cutFirst_eq_none_iff.mpr hno] at h
    cases h
  obtain ⟨left, right, rfl, hleft⟩ := List.eq_append_cons_of_mem hmem
  rw [cutFirst_append_cons hleft, Option.some.injEq, Prod.mk.injEq] at h
  obtain ⟨rfl, rfl⟩ := h
  exact ⟨rfl, hleft⟩

theorem cutLast_eq_none_iff : cutLast sep s = none ↔ sep ∉ s := by
  induction s with
  | nil => simp [cutLast]
  | cons c s ih =>
      rw [cutLast, List.mem_cons, not_or, ← ih]
      cases cutLast sep s with
      | none => simp [eq_comm]
      | some parts => simp

theorem cutLast_append_cons (before : List Char) (h : sep ∉ after) :
    cutLast sep (before ++ sep :: after) = some (before, after) := by
  induction before with
  | nil => simp [cutLast, cutLast_eq_none_iff.mpr h]
  | cons c before ih => simp [cutLast, ih]

theorem cutLast_eq_some_iff :
    cutLast sep s = some (before, after) ↔ s = before ++ sep :: after ∧ sep ∉ after := by
  refine ⟨fun h => ?_, fun h => h.1 ▸ cutLast_append_cons before h.2⟩
  have hmem : sep ∈ s := by
    by_contra hno
    rw [cutLast_eq_none_iff.mpr hno] at h
    cases h
  -- the last separator of a text is the first one of the text read backwards
  obtain ⟨right, left, hs, hright⟩ := List.eq_append_cons_of_mem (List.mem_reverse.mpr hmem)
  obtain rfl : s = left.reverse ++ sep :: right.reverse := by simpa using congrArg List.reverse hs
  have hafter : sep ∉ right.reverse := by simpa using hright
  rw [cutLast_append_cons _ hafter, Option.some.injEq, Prod.mk.injEq] at h
  obtain ⟨rfl, rfl⟩ := h
  exact ⟨rfl, hafter⟩

/-- What comes behind the last separator of a text comes behind every one of them. -/
theorem isSuffix_of_last {before' after' : List Char}
    (h : before ++ sep :: after = before' ++ sep :: after') (hlast : sep ∉ after) :
    after <:+ after' := by
  have hleft : after <:+ before ++ sep :: after := ⟨before ++ [sep], by simp⟩
  have hright : sep :: after' <:+ before ++ sep :: after := h ▸ List.suffix_append _ _
  rcases List.suffix_or_suffix_of_suffix hleft hright with hsuffix | hsuffix
  · rcases List.suffix_cons_iff.mp hsuffix with rfl | hsuffix
    · exact absurd List.mem_cons_self hlast
    · exact hsuffix
  · exact absurd (hsuffix.subset List.mem_cons_self) hlast

end ContainerAudit.Text

namespace ContainerAudit.Dockerfile

open ContainerAudit.Text

/-! ## Parts and the text they make -/

/-- A part with the mark in front of it, or nothing if there is no such part. -/
def marked (mark : Char) : Option (List Char) → List Char
  | none => []
  | some part => mark :: part

/-- The text of a reference: its name, its tag behind a colon and its digest behind an `@`. -/
def ImageRef.text (r : ImageRef) : List Char :=
  r.name ++ marked ':' r.tag ++ marked '@' r.digest

/-- Each colon of the name has a slash behind it, so that none comes after the last slash. -/
def NoTagIn (name : List Char) : Prop :=
  ∀ before after, name = before ++ ':' :: after → '/' ∈ after

/-- No separator stands in a part where it would end that part or start another one.  The digest
comes last and may hold any character. -/
structure ImageRef.Separated (r : ImageRef) : Prop where
  name : '@' ∉ r.name
  tag : ∀ tag, r.tag = some tag → ':' ∉ tag ∧ '/' ∉ tag ∧ '@' ∉ tag
  untagged : r.tag = none → NoTagIn r.name

/-! ## Reading -/

/-- A text has no colon that could start a tag, or it ends with one and the tag behind it. -/
theorem noTagIn_or (s : List Char) :
    NoTagIn s ∨ ∃ name tag, s = name ++ ':' :: tag ∧ ':' ∉ tag ∧ '/' ∉ tag := by
  cases hcut : cutLast ':' s with
  | none =>
      refine .inl fun before after heq => ?_
      exact absurd (heq ▸ by simp) (cutLast_eq_none_iff.mp hcut)
  | some parts =>
      obtain ⟨hs, hcolon⟩ := cutLast_eq_some_iff.mp hcut
      by_cases hslash : '/' ∈ parts.2
      · -- the slash is behind the last colon, and so behind all of them
        refine .inl fun before after heq => ?_
        exact (isSuffix_of_last (hs.symm.trans heq) hcolon).subset hslash
      · exact .inr ⟨parts.1, parts.2, hs, hcolon, hslash⟩

theorem splitTag_append_cons (name : List Char) {tag : List Char} (hcolon : ':' ∉ tag)
    (hslash : '/' ∉ tag) : splitTag (name ++ ':' :: tag) = (name, some tag) := by
  simp [splitTag, cutLast_append_cons name hcolon, hslash]

theorem splitTag_of_noTagIn {s : List Char} (h : NoTagIn s) : splitTag s = (s, none) := by
  rw [splitTag]
  split
  · next before after hcut =>
      obtain ⟨hs, -⟩ := cutLast_eq_some_iff.mp hcut
      rw [if_pos (by simpa using h before after hs)]
  · rfl

theorem splitTag_eq_iff {s name : List Char} {tag : Option (List Char)} :
    splitTag s = (name, tag) ↔ s = name ++ marked ':' tag ∧
      (∀ t, tag = some t → ':' ∉ t ∧ '/' ∉ t) ∧ (tag = none → NoTagIn name) := by
  constructor
  · intro h
    rcases noTagIn_or s with hnone | ⟨before, after, rfl, hcolon, hslash⟩
    · rw [splitTag_of_noTagIn hnone] at h
      obtain ⟨rfl, rfl⟩ := Prod.mk.inj h
      exact ⟨(List.append_nil s).symm, by simp, fun _ => hnone⟩
    · rw [splitTag_append_cons before hcolon hslash] at h
      obtain ⟨rfl, rfl⟩ := Prod.mk.inj h
      refine ⟨rfl, fun t ht => ?_, by simp⟩
      obtain rfl := Option.some.inj ht
      exact ⟨hcolon, hslash⟩
  · rintro ⟨rfl, htag, hname⟩
    cases tag with
    | some t => exact splitTag_append_cons name (htag t rfl).1 (htag t rfl).2
    | none =>
        rw [marked, List.append_nil]
        exact splitTag_of_noTagIn (hname rfl)

theorem ofText_eq_iff_splitTag {s : List Char} {r : ImageRef} :
    ImageRef.ofText s = r ↔ ∃ reference, s = reference ++ marked '@' r.digest ∧ '@' ∉ reference ∧
      splitTag reference = (r.name, r.tag) := by
  obtain ⟨name, tag, digest⟩ := r
  constructor
  · intro h
    cases hcut : cutFirst '@' s with
    | some parts =>
        obtain ⟨rfl, hbefore⟩ := cutFirst_eq_some_iff.mp hcut
        rw [ImageRef.ofText, hcut] at h
        obtain ⟨rfl, rfl, rfl⟩ := ImageRef.mk.inj h
        exact ⟨parts.1, rfl, hbefore, rfl⟩
    | none =>
        rw [ImageRef.ofText, hcut] at h
        obtain ⟨rfl, rfl, rfl⟩ := ImageRef.mk.inj h
        exact ⟨s, (List.append_nil s).symm, cutFirst_eq_none_iff.mp hcut, rfl⟩
  · rintro ⟨reference, rfl, hat, hsplit⟩
    cases digest with
    | none => simp [ImageRef.ofText, marked, cutFirst_eq_none_iff.mpr hat, hsplit]
    | some digest => simp [ImageRef.ofText, marked, cutFirst_append_cons hat, hsplit]

/-- A text is read as the parts that it is put together from, if these can be told apart. -/
theorem ImageRef.ofText_eq_iff {s : List Char} {r : ImageRef} :
    ofText s = r ↔ r.text = s ∧ r.Separated := by
  rw [ofText_eq_iff_splitTag]
  constructor
  · rintro ⟨reference, rfl, hat, hsplit⟩
    obtain ⟨rfl, htag, hname⟩ := splitTag_eq_iff.mp hsplit
    rw [List.mem_append, not_or] at hat
    refine ⟨rfl, hat.1, fun tag ht => ?_, hname⟩
    obtain ⟨hcolon, hslash⟩ := htag tag ht
    exact ⟨hcolon, hslash, fun h => hat.2 (by simp [ht, marked, h])⟩
  · rintro ⟨rfl, hname, htag, huntagged⟩
    refine ⟨r.name ++ marked ':' r.tag, rfl, ?_, splitTag_eq_iff.mpr ⟨rfl, ?_, huntagged⟩⟩
    · cases ht : r.tag with
      | none => simpa [marked] using hname
      | some tag => simpa [marked, hname] using (htag tag ht).2.2
    · exact fun tag ht => ⟨(htag tag ht).1, (htag tag ht).2.1⟩

/-! ## Ports -/

/-- The front of a text that ends with a marked part reaches into that part or does not. -/
theorem isPrefix_append_marked {front s : List Char} {mark : Char} {part : Option (List Char)}
    (h : front <+: s ++ marked mark part) :
    front <+: s ∨ ∃ text t, part = some text ∧ front = s ++ mark :: t ∧ t <+: text := by
  rcases List.prefix_or_prefix_of_prefix h (List.prefix_append s _) with hshort | ⟨rest, rfl⟩
  · exact .inl hshort
  rw [List.prefix_append_right_inj] at h
  cases rest with
  | nil => exact .inl (by simp)
  | cons c rest =>
      cases part with
      | none => simp [marked] at h
      | some text =>
          obtain ⟨rfl, hrest⟩ := List.cons_prefix_cons.mp h
          exact .inr ⟨text, rest, rfl, rfl, hrest⟩

/-- All up to a slash belongs to the name, unless the digest has begun before. -/
theorem ImageRef.Separated.slash_isPrefix {r : ImageRef} (h : r.Separated) {front : List Char}
    (htext : front ++ ['/'] <+: r.text) (hfront : '@' ∉ front) : front ++ ['/'] <+: r.name := by
  rcases isPrefix_append_marked htext with hreference | ⟨_, t, -, heq, -⟩
  · rcases isPrefix_append_marked hreference with hname | ⟨tag, t, ht, heq, htag⟩
    · exact hname
    · -- the slash would be the last character of the tag
      have hlast : '/' ∈ ':' :: t := by
        have hend := congrArg List.getLast? heq
        rw [List.getLast?_concat, List.getLast?_append_of_ne_nil _ (List.cons_ne_nil _ _)] at hend
        exact List.mem_of_getLast? hend.symm
      have hslash : '/' ∈ t := by simpa using hlast
      exact absurd (htag.subset hslash) (h.tag tag ht).2.1
  · have hat : '@' ∈ front ++ ['/'] := heq ▸ by simp
    exact absurd hat (by simpa using hfront)

/-- **Reading a reference takes it apart exactly.**  The parts that are read can be told apart and
make the text again, and parts that can be told apart are read back from their text.  What stands
before a slash, such as the port of a registry, is never read as a tag. -/
theorem ImageRef.ofText_takes_apart :
    (∀ s, (ofText s).text = s ∧ (ofText s).Separated) ∧
    (∀ r : ImageRef, r.Separated → ofText r.text = r) ∧
    ∀ host port path, '@' ∉ host → '@' ∉ port →
      host ++ ':' :: port ++ ['/'] <+: (ofText (host ++ ':' :: port ++ '/' :: path)).name := by
  have hread (s : List Char) : (ofText s).text = s ∧ (ofText s).Separated := ofText_eq_iff.mp rfl
  refine ⟨hread, fun r hr => ofText_eq_iff.mpr ⟨rfl, hr⟩, fun host port path hhost hport => ?_⟩
  obtain ⟨htext, hseparated⟩ := hread (host ++ ':' :: port ++ '/' :: path)
  refine hseparated.slash_isPrefix ⟨path, ?_⟩ (by simp [hhost, hport])
  rw [htext, List.append_assoc, List.singleton_append]

/-- A registry with a port, a tag and a digest with a colon of its own. -/
def pinnedRef : ImageRef :=
  ⟨"localhost:5000/app".toList, some "1.2".toList, some "sha256:ab".toList⟩

theorem ImageRef.ofText_takes_apart_port :
    ofText "localhost:5000/app:1.2@sha256:ab".toList = pinnedRef ∧
    "localhost:5000/".toList <+: (ofText "localhost:5000/app".toList).name := by
  obtain ⟨-, hback, hport⟩ := ofText_takes_apart
  refine ⟨hback pinnedRef ⟨by decide, ?_, ?_⟩, ?_⟩
  · intro tag ht
    obtain rfl := Option.some.inj ht
    decide
  · intro h
    cases h
  · exact hport "localhost".toList "5000".toList "app".toList (by decide) (by decide)

end ContainerAudit.Dockerfile
