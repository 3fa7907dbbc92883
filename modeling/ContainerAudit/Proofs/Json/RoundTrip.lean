import ContainerAudit.Proofs.Entries
import ContainerAudit.Proofs.Json.Leaf

/-!
# Reading back a page

A value over several lines is read as the value that was written (`read?_page`), and it is written
with ASCII characters alone (`ascii_page`).

This is told of values without fractions whose objects name each member once (`Exact`).  A fraction
may be the undefined one, which no text gives back; and of two members with one name the reader
keeps one.

The reader is run with fuel.  A value takes at most twice the length of its text, and the brackets
around its parts pay for the steps between them, so the bound goes through the induction as it is.
-/

namespace ContainerAudit.Json

/-- A value that the text of a page gives back: it holds no fractions, and its objects name each of
their members once. -/
inductive Exact : Json → Prop
  | null : Exact null
  | bool (b : Bool) : Exact (bool b)
  | int (n : Int) : Exact (int n)
  | str (s : String) : Exact (str s)
  | arr {items : List Json} (hitems : ∀ j ∈ items, Exact j) : Exact (arr items)
  | obj {members : List (String × Json)} (hnames : (members.map Prod.fst).Nodup)
      (hvalues : ∀ m ∈ members, Exact m.2) : Exact (obj members)

/-! ## Where a value starts -/

/-- A text at whose first character a value or a member can be read. -/
def Starts (s : List Char) : Prop :=
  ∃ c t, s = c :: t ∧ isJsonBlank c = false ∧ c ≠ ']' ∧ c ≠ '\x7d'

theorem Starts.append {s : List Char} (h : Starts s) (rest : List Char) : Starts (s ++ rest) := by
  obtain ⟨c, t, rfl, hc⟩ := h
  exact ⟨c, t ++ rest, rfl, hc⟩

theorem Starts.length_pos {s : List Char} (h : Starts s) : 0 < s.length := by
  obtain ⟨c, t, rfl, _⟩ := h
  exact Nat.succ_pos _

theorem Starts.skipBlanks_eq {s : List Char} (h : Starts s) : skipBlanks s = s := by
  obtain ⟨c, t, rfl, hc, _⟩ := h
  exact List.dropWhile_cons_of_neg (Bool.eq_false_iff.mp hc)

theorem skipBlanks_freshLine (level : Nat) (s : List Char) :
    skipBlanks (freshLine level ++ s) = skipBlanks s := by
  refine List.dropWhile_append_of_pos fun c hc => ?_
  rw [freshLine, List.mem_cons, List.mem_replicate] at hc
  rcases hc with rfl | ⟨_, rfl⟩ <;> rfl

theorem Starts.skipBlanks_freshLine {s : List Char} (h : Starts s) (level : Nat) :
    skipBlanks (freshLine level ++ s) = s := by
  rw [Json.skipBlanks_freshLine, h.skipBlanks_eq]

theorem starts_stringChars (s : String) : Starts (stringChars s) :=
  ⟨'"', _, rfl, by decide⟩

theorem ne_of_isDigit {c d : Char} (hc : c.isDigit = true) (hd : d.isDigit = false) : c ≠ d := by
  rintro rfl
  exact Bool.eq_false_iff.mp hd hc

theorem starts_of_isDigit {c : Char} (h : c.isDigit = true) (s : List Char) : Starts (c :: s) := by
  have hne {d : Char} (hd : d.isDigit = false) : c ≠ d := ne_of_isDigit h hd
  refine ⟨c, s, rfl, ?_, hne rfl, hne rfl⟩
  simp [isJsonBlank, hne (d := ' ') rfl, hne (d := '\t') rfl, hne (d := '\n') rfl,
    hne (d := '\r') rfl]

theorem starts_leafChars_int (n : Int) : Starts (leafChars (int n)) := by
  cases n with
  | ofNat n =>
      obtain ⟨c, s, hs, hc⟩ := exists_toDigits_append n []
      rw [List.append_nil] at hs
      rw [Int.ofNat_eq_natCast, intChars_ofNat, hs]
      exact starts_of_isDigit hc s
  | negSucc n =>
      rw [intChars_negSucc]
      exact ⟨'-', _, rfl, by decide⟩

theorem starts_pageChars {j : Json} (h : Exact j) (level : Nat) : Starts (pageChars level j) := by
  cases h with
  | null => exact ⟨'n', _, rfl, by decide⟩
  | bool b => cases b <;> exact ⟨_, _, rfl, by decide⟩
  | int n => exact starts_leafChars_int n
  | str s => exact starts_stringChars s
  | @arr items _ => cases items <;> exact ⟨'[', _, rfl, by decide⟩
  | @obj members _ _ => cases members <;> exact ⟨'\x7b', _, rfl, by decide⟩

theorem starts_pageItems {first : Json} {js : List Json} (h : ∀ j ∈ first :: js, Exact j)
    (level : Nat) : Starts (pageItems level (first :: js)) := by
  have hfirst := starts_pageChars (h first List.mem_cons_self) level
  cases js with
  | nil => rwa [pageItems]
  | cons next js =>
      rw [pageItems, List.append_assoc]
      exact hfirst.append _

theorem starts_pageMembers (first : String × Json) (ms : List (String × Json)) (level : Nat) :
    Starts (pageMembers level (first :: ms)) := by
  cases ms with
  | nil =>
      rw [pageMembers]
      exact (starts_stringChars first.1).append _
  | cons next ms =>
      rw [pageMembers, List.append_assoc, List.append_assoc]
      exact (starts_stringChars first.1).append _

/-! ## One step of the reader -/

theorem value_leaf {s : List Char} (h : ∀ c ∈ s.head?, c ≠ '"' ∧ c ≠ '[' ∧ c ≠ '\x7b')
    (fuel : Nat) : value (fuel + 1) s = leafValue s := by
  cases s with
  | nil => rw [value] <;> simp
  | cons c s =>
      obtain ⟨hquote, harr, hobj⟩ := h c rfl
      rw [value] <;> simp_all

theorem value_word {word : String} {j : Json} (hj : (word, j) ∈ words) {rest : List Char}
    (h : Follows rest) (fuel : Nat) : value (fuel + 1) (word.toList ++ rest) = some (j, rest) := by
  rw [value_leaf _ fuel, leafValue_word hj h]
  simp only [words, List.mem_cons, Prod.mk.injEq, List.not_mem_nil, or_false] at hj
  rcases hj with ⟨rfl, _⟩ | ⟨rfl, _⟩ | ⟨rfl, _⟩ <;> simp

theorem value_int (n : Int) {rest : List Char} (h : Follows rest) (fuel : Nat) :
    value (fuel + 1) (leafChars (int n) ++ rest) = some (int n, rest) := by
  rw [value_leaf _ fuel, leafValue_int n h]
  cases n with
  | ofNat n =>
      obtain ⟨c, s, hs, hc⟩ := exists_toDigits_append n rest
      rw [Int.ofNat_eq_natCast, intChars_ofNat, hs]
      rintro d ⟨rfl⟩
      exact ⟨ne_of_isDigit hc rfl, ne_of_isDigit hc rfl, ne_of_isDigit hc rfl⟩
  | negSucc n =>
      rw [intChars_negSucc]
      rintro d ⟨rfl⟩
      decide

theorem value_str (s : String) (fuel : Nat) (rest : List Char) :
    value (fuel + 1) (stringChars s ++ rest) = some (str s, rest) := by
  rw [stringChars_append, value, stringRest_escaped]
  simp

theorem value_arr {s : List Char} (h : Starts (skipBlanks s)) (fuel : Nat) :
    value (fuel + 1) ('[' :: s) =
      (items fuel (skipBlanks s)).map fun (values, after) => (arr values, after) := by
  obtain ⟨c, t, ht, _, hc, _⟩ := h
  rw [value, ht]
  simp [hc]

theorem value_obj {s : List Char} (h : Starts (skipBlanks s)) (fuel : Nat) :
    value (fuel + 1) ('\x7b' :: s) =
      (members fuel [] (skipBlanks s)).map fun (ms, after) => (obj ms, after) := by
  obtain ⟨c, t, ht, _, _, hc⟩ := h
  rw [value, ht]
  simp [hc]

theorem items_last {fuel : Nat} {s rest after : List Char} {j : Json}
    (hvalue : value fuel s = some (j, rest)) (hrest : skipBlanks rest = ']' :: after) :
    items (fuel + 1) s = some ([j], after) := by
  rw [items, hvalue]
  simp [hrest]

theorem items_more {fuel : Nat} {s rest more after : List Char} {j : Json} {js : List Json}
    (hvalue : value fuel s = some (j, rest)) (hrest : skipBlanks rest = ',' :: more)
    (hmore : items fuel (skipBlanks more) = some (js, after)) :
    items (fuel + 1) s = some (j :: js, after) := by
  rw [items, hvalue]
  simp [hrest, hmore]

/-- The value of a member is read behind its name, a colon and a blank. -/
theorem skipBlanks_colon {s : List Char} (hs : Starts s) :
    skipBlanks (':' :: ' ' :: s) = ':' :: ' ' :: s ∧ skipBlanks (' ' :: s) = s :=
  ⟨rfl, hs.skipBlanks_eq⟩

section Members

variable {fuel : Nat} {before : List (String × Json)} {name : String}
  {s rest after more : List Char} {j : Json}

theorem members_last (hs : Starts s) (hvalue : value fuel s = some (j, rest))
    (hrest : skipBlanks rest = '\x7d' :: after) :
    members (fuel + 1) before (stringChars name ++ ':' :: ' ' :: s) =
      some (put name j before, after) := by
  rw [stringChars_append, members, stringRest_escaped]
  simp [skipBlanks_colon hs, hvalue, hrest]

theorem members_more (hs : Starts s) (hvalue : value fuel s = some (j, rest))
    (hrest : skipBlanks rest = ',' :: more) :
    members (fuel + 1) before (stringChars name ++ ':' :: ' ' :: s) =
      members fuel (put name j before) (skipBlanks more) := by
  rw [stringChars_append, members, stringRest_escaped]
  simp [skipBlanks_colon hs, hvalue, hrest]

end Members

/-! ## The parts of a value -/

/-- The text of a value, in front of anything that can follow it, is read as the value. -/
def ReadsBack (j : Json) : Prop :=
  ∀ (level fuel : Nat) (rest : List Char), Follows rest →
    2 * (pageChars level j).length ≤ fuel →
      value fuel (pageChars level j ++ rest) = some (j, rest)

/-- A text is not empty, so the bound leaves fuel for a step. -/
theorem exists_fuel {j : Json} (h : Exact j) {level fuel : Nat}
    (hfuel : 2 * (pageChars level j).length ≤ fuel) : ∃ m, fuel = m + 1 := by
  have hpos := (starts_pageChars h level).length_pos
  exact ⟨fuel - 1, by omega⟩

theorem notMem_fst_of_nodup {before ms : List (String × Json)} {name : String} {j : Json}
    (h : ((before ++ (name, j) :: ms).map Prod.fst).Nodup) : name ∉ before.map Prod.fst := by
  rw [List.map_append, List.map_cons, List.nodup_append] at h
  intro hmem
  exact h.2.2 name hmem name List.mem_cons_self rfl

theorem items_pageItems {first : Json} {js : List Json}
    (hexact : ∀ j ∈ first :: js, Exact j) (h : ∀ j ∈ first :: js, ReadsBack j)
    (level close fuel : Nat) (rest : List Char)
    (hfuel : 2 * (pageItems level (first :: js)).length + 1 ≤ fuel) :
    items fuel (pageItems level (first :: js) ++ (freshLine close ++ ']' :: rest)) =
      some (first :: js, rest) := by
  induction js generalizing first fuel with
  | nil =>
      obtain ⟨fuel, rfl⟩ : ∃ m, fuel = m + 1 := ⟨fuel - 1, by omega⟩
      rw [pageItems] at hfuel ⊢
      have hfirst := h first List.mem_cons_self level fuel _
        (follows_freshLine close (']' :: rest)) (by omega)
      refine items_last hfirst ?_
      rw [skipBlanks_freshLine]
      rfl
  | cons next js ih =>
      obtain ⟨fuel, rfl⟩ : ∃ m, fuel = m + 1 := ⟨fuel - 1, by omega⟩
      have hexact' : ∀ j ∈ next :: js, Exact j := fun j hj =>
        hexact j (List.mem_cons_of_mem first hj)
      have hnext := (starts_pageItems hexact' level).append (freshLine close ++ ']' :: rest)
      rw [pageItems] at hfuel ⊢
      simp only [List.length_append, List.length_cons] at hfuel
      have hmore := ih hexact' (fun j hj => h j (List.mem_cons_of_mem first hj)) fuel (by omega)
      simp only [List.append_assoc, List.cons_append]
      have hfirst := h first List.mem_cons_self level fuel _ (follows_comma (freshLine level ++
        (pageItems level (next :: js) ++ (freshLine close ++ ']' :: rest)))) (by omega)
      refine items_more hfirst rfl ?_
      rw [hnext.skipBlanks_freshLine]
      exact hmore

/-- The members read before keep their places in front of those that are read. -/
theorem members_pageMembers {first : String × Json} {ms : List (String × Json)}
    (hexact : ∀ m ∈ first :: ms, Exact m.2) (h : ∀ m ∈ first :: ms, ReadsBack m.2)
    (before : List (String × Json)) (hnames : ((before ++ first :: ms).map Prod.fst).Nodup)
    (level close fuel : Nat) (rest : List Char)
    (hfuel : 2 * (pageMembers level (first :: ms)).length + 1 ≤ fuel) :
    members fuel before (pageMembers level (first :: ms) ++ (freshLine close ++ '\x7d' :: rest)) =
      some (before ++ first :: ms, rest) := by
  induction ms generalizing first before fuel with
  | nil =>
      obtain ⟨name, j⟩ := first
      obtain ⟨fuel, rfl⟩ : ∃ m, fuel = m + 1 := ⟨fuel - 1, by omega⟩
      have hnew : put name j before = before ++ [(name, j)] :=
        put_of_notMem (notMem_fst_of_nodup hnames)
      have hstarts := (starts_pageChars (hexact (name, j) List.mem_cons_self) level).append
        (freshLine close ++ '\x7d' :: rest)
      rw [pageMembers] at hfuel ⊢
      simp only [List.length_append, List.length_cons] at hfuel
      have hfirst := h (name, j) List.mem_cons_self level fuel _
        (follows_freshLine close ('\x7d' :: rest)) (by simp only; omega)
      simp only [List.append_assoc, List.cons_append]
      rw [members_last hstarts hfirst (by rw [skipBlanks_freshLine]; rfl), hnew]
  | cons next ms ih =>
      obtain ⟨name, j⟩ := first
      obtain ⟨fuel, rfl⟩ : ∃ m, fuel = m + 1 := ⟨fuel - 1, by omega⟩
      have hnew : put name j before = before ++ [(name, j)] :=
        put_of_notMem (notMem_fst_of_nodup hnames)
      have hstarts := starts_pageChars (hexact (name, j) List.mem_cons_self) level
      have hnext := (starts_pageMembers next ms level).append (freshLine close ++ '\x7d' :: rest)
      rw [pageMembers] at hfuel ⊢
      simp only [List.length_append, List.length_cons] at hfuel
      have hmore := ih (fun m hm => hexact m (List.mem_cons_of_mem _ hm))
        (fun m hm => h m (List.mem_cons_of_mem _ hm)) (before ++ [(name, j)])
        (by rwa [List.append_assoc]) fuel (by omega)
      have hfirst := h (name, j) List.mem_cons_self level fuel _ (follows_comma (freshLine level ++
        (pageMembers level (next :: ms) ++ (freshLine close ++ '\x7d' :: rest))))
        (by simp only; omega)
      simp only [List.append_assoc, List.cons_append]
      rw [members_more (hstarts.append _) hfirst rfl, hnew, hnext.skipBlanks_freshLine, hmore,
        List.append_assoc, List.cons_append, List.nil_append]

/-! ## Whole values -/

/-- Every exact value reads back. -/
theorem Exact.readsBack {j : Json} (h : Exact j) : ReadsBack j := by
  induction h with
  | null =>
      intro level fuel rest hrest hfuel
      obtain ⟨fuel, rfl⟩ := exists_fuel .null hfuel
      exact value_word (by simp [words]) hrest fuel
  | bool b =>
      intro level fuel rest hrest hfuel
      obtain ⟨fuel, rfl⟩ := exists_fuel (.bool b) hfuel
      cases b with
      | true => exact value_word (by simp [words]) hrest fuel
      | false => exact value_word (by simp [words]) hrest fuel
  | int n =>
      intro level fuel rest hrest hfuel
      obtain ⟨fuel, rfl⟩ := exists_fuel (.int n) hfuel
      exact value_int n hrest fuel
  | str s =>
      intro level fuel rest hrest hfuel
      obtain ⟨fuel, rfl⟩ := exists_fuel (.str s) hfuel
      exact value_str s fuel rest
  | @arr items hitems ih =>
      intro level fuel rest hrest hfuel
      obtain ⟨fuel, rfl⟩ := exists_fuel (.arr hitems) hfuel
      cases items with
      | nil => rfl
      | cons first js =>
          have hstarts := (starts_pageItems hitems (level + 1)).append
            (freshLine level ++ ']' :: rest)
          rw [pageChars] at hfuel ⊢
          simp only [List.length_append, List.length_cons] at hfuel
          simp only [List.append_assoc, List.cons_append, List.nil_append]
          rw [value_arr, hstarts.skipBlanks_freshLine,
            items_pageItems hitems ih (level + 1) level fuel rest (by omega)]
          · rfl
          · rw [hstarts.skipBlanks_freshLine]
            exact hstarts
  | @obj members hnames hvalues ih =>
      intro level fuel rest hrest hfuel
      obtain ⟨fuel, rfl⟩ := exists_fuel (.obj hnames hvalues) hfuel
      cases members with
      | nil => rfl
      | cons first ms =>
          have hstarts := (starts_pageMembers first ms (level + 1)).append
            (freshLine level ++ '\x7d' :: rest)
          rw [pageChars] at hfuel ⊢
          simp only [List.length_append, List.length_cons] at hfuel
          simp only [List.append_assoc, List.cons_append, List.nil_append]
          rw [value_obj, hstarts.skipBlanks_freshLine,
            members_pageMembers hvalues ih [] hnames (level + 1) level fuel rest (by omega)]
          · rfl
          · rw [hstarts.skipBlanks_freshLine]
            exact hstarts

/-- The page of an exact value is read as the value. -/
theorem read?_page {j : Json} (h : Exact j) : read? j.page.toList = some j := by
  have hread := h.readsBack 0 (2 * (pageChars 0 j).length + 2) [] follows_nil (by omega)
  rw [List.append_nil] at hread
  rw [page, String.toList_ofList, read?, (starts_pageChars h 0).skipBlanks_eq, hread]
  rfl

/-! ## Only ASCII -/

def Ascii (s : List Char) : Prop :=
  ∀ c ∈ s, c.toNat < 128

theorem ascii_cons {c : Char} {s : List Char} (hc : c.toNat < 128) (hs : Ascii s) :
    Ascii (c :: s) :=
  List.forall_mem_cons.mpr ⟨hc, hs⟩

theorem Ascii.append {s t : List Char} (hs : Ascii s) (ht : Ascii t) : Ascii (s ++ t) :=
  List.forall_mem_append.mpr ⟨hs, ht⟩

theorem ascii_unitEscape (n : Nat) : Ascii (unitEscape n) := by
  have hdigit : ∀ k < 16, (Text.hexDigit k).toNat < 128 := by decide
  have hlast (m : Nat) : (Text.hexDigit (m % 16)).toNat < 128 :=
    hdigit (m % 16) (Nat.mod_lt m (by decide))
  simp [Ascii, unitEscape_eq, hlast]

theorem ascii_escapeChar (c : Char) : Ascii (escapeChar c) := by
  unfold escapeChar
  split_ifs with hspecial hn hr htab hb hf hprint hplane
  · rcases hspecial with rfl | rfl <;> simp [Ascii]
  · simp [Ascii]
  · simp [Ascii]
  · simp [Ascii]
  · simp [Ascii]
  · simp [Ascii]
  · simp only [Ascii, List.mem_singleton, forall_eq]
    omega
  · exact ascii_unitEscape c.toNat
  · exact (ascii_unitEscape _).append (ascii_unitEscape _)

theorem ascii_stringChars (s : String) : Ascii (stringChars s) := by
  have hbody : Ascii (s.toList.flatMap escapeChar) := fun c hc => by
    obtain ⟨d, _, hd⟩ := List.mem_flatMap.mp hc
    exact ascii_escapeChar d c hd
  exact ascii_cons (by decide) (hbody.append (by simp [Ascii]))

theorem ascii_toDigits (n : Nat) : Ascii (Nat.toDigits 10 n) := by
  intro c hc
  have hrange := (isDigit_iff c).mp (isDigit_of_mem_toDigits c hc)
  omega

theorem ascii_leafChars_int (n : Int) : Ascii (leafChars (int n)) := by
  cases n with
  | ofNat n =>
      rw [Int.ofNat_eq_natCast, intChars_ofNat]
      exact ascii_toDigits n
  | negSucc n =>
      rw [intChars_negSucc]
      exact ascii_cons (by decide) (ascii_toDigits (n + 1))

theorem ascii_freshLine (level : Nat) : Ascii (freshLine level) := by
  intro c hc
  rw [freshLine, List.mem_cons, List.mem_replicate] at hc
  rcases hc with rfl | ⟨_, rfl⟩ <;> decide

theorem ascii_pageItems {level : Nat} {js : List Json} (h : ∀ j ∈ js, Ascii (pageChars level j)) :
    Ascii (pageItems level js) := by
  induction js with
  | nil => simp [Ascii, pageItems]
  | cons first js ih =>
      obtain ⟨hfirst, hjs⟩ := List.forall_mem_cons.mp h
      cases js with
      | nil => rwa [pageItems]
      | cons next js =>
          rw [pageItems]
          exact (hfirst.append (ascii_cons (by decide) (ascii_freshLine level))).append (ih hjs)

theorem ascii_pageMembers {level : Nat} {ms : List (String × Json)}
    (h : ∀ m ∈ ms, Ascii (pageChars level m.2)) : Ascii (pageMembers level ms) := by
  have hmember (m : String × Json) (hm : Ascii (pageChars level m.2)) :
      Ascii (stringChars m.1 ++ ':' :: ' ' :: pageChars level m.2) :=
    (ascii_stringChars m.1).append (ascii_cons (by decide) (ascii_cons (by decide) hm))
  induction ms with
  | nil => simp [Ascii, pageMembers]
  | cons first ms ih =>
      obtain ⟨hfirst, hms⟩ := List.forall_mem_cons.mp h
      cases ms with
      | nil =>
          rw [pageMembers]
          exact hmember first hfirst
      | cons next ms =>
          rw [pageMembers]
          exact ((hmember first hfirst).append
            (ascii_cons (by decide) (ascii_freshLine level))).append (ih hms)

theorem Exact.ascii_pageChars {j : Json} (h : Exact j) (level : Nat) :
    Ascii (pageChars level j) := by
  induction h generalizing level with
  | null => simp [Ascii, pageChars, leafChars]
  | bool b => cases b <;> simp [Ascii, pageChars, leafChars]
  | int n => exact ascii_leafChars_int n
  | str s => exact ascii_stringChars s
  | @arr items hitems ih =>
      cases items with
      | nil => simp [Ascii, pageChars]
      | cons first js =>
          have hjs := ascii_pageItems fun j hj => ih j hj (level + 1)
          rw [pageChars]
          exact (((ascii_cons (by decide) (ascii_freshLine (level + 1))).append hjs).append
            (ascii_freshLine level)).append (by simp [Ascii])
  | @obj members hnames hvalues ih =>
      cases members with
      | nil => simp [Ascii, pageChars]
      | cons first ms =>
          have hms := ascii_pageMembers fun m hm => ih m hm (level + 1)
          rw [pageChars]
          exact (((ascii_cons (by decide) (ascii_freshLine (level + 1))).append hms).append
            (ascii_freshLine level)).append (by simp [Ascii])

theorem ascii_page {j : Json} (h : Exact j) : Ascii j.page.toList := by
  rw [page, String.toList_ofList]
  exact h.ascii_pageChars 0

end ContainerAudit.Json
