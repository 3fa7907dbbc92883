import ContainerAudit.Proofs.Dockerfile.Line

/-!
# Reading as a run of steps

`feed` reads lines one after another and keeps the state in which they leave off, where the reader
itself only tells how a file ends.  The two agree (`statementsFrom_eq_conclude`), and what holds of
a whole reading is got from `feed`:

  * lines behind other lines are read from the state that those leave (`feed_append`), and the body
    of a here-document up to the line that closes it (`goOn_body`);
  * the number of the first line shows in the numbers of instructions and nowhere else
    (`feed_shift`);
  * what each step keeps, a whole reading keeps (`feed_forall`);
  * an instruction is open from the line on which it starts until it is completed
    (`step_advances`), and what is completed has a keyword (`feed_named`).
-/

namespace ContainerAudit.Dockerfile

open ContainerAudit.Text (trim trimEnd isBlank joinWith)

/-- Read lines from a state on, the first of them with a number: the state after them, and the
instructions that they complete. -/
def feed (escape : Char) : State → Nat → List Line → State × List Statement
  | state, _, [] => (state, [])
  | state, number, l :: rest =>
    let here := step escape state number l
    let later := feed escape here.1 (number + 1) rest
    (later.1, here.2.toList ++ later.2)

theorem feed_cons_none {escape : Char} {state next : State} {number : Nat} {l : Line}
    (h : step escape state number l = (next, none)) (ls : List Line) :
    feed escape state number (l :: ls) = feed escape next (number + 1) ls := by
  rw [feed, h]
  rfl

theorem feed_cons_some {escape : Char} {state next : State} {number : Nat} {l : Line}
    {s : Statement} (h : step escape state number l = (next, some s)) (ls : List Line) :
    feed escape state number (l :: ls) =
      ((feed escape next (number + 1) ls).1, s :: (feed escape next (number + 1) ls).2) := by
  rw [feed, h]
  rfl

/-- What is wrong with a file that ends in a state. -/
def State.error? : State → Option Error
  | .between => none
  | .joining start _ => some (.danglingContinuation start)
  | .inBody statement word _ _ => some (.unterminatedHeredoc (String.ofList word) statement.line)

/-- The result for a file that ends where a reading has left off. -/
def conclude (reading : State × List Statement) : Except Error (List Statement) :=
  match reading.1.error? with
  | none => .ok reading.2
  | some e => .error e

theorem conclude_cons (s : Statement) (state : State) (later : List Statement) :
    conclude (state, s :: later) = (conclude (state, later)).map (s :: ·) := by
  simp only [conclude]
  cases state.error? <;> rfl

theorem conclude_eq_ok {reading : State × List Statement} {out : List Statement} :
    conclude reading = .ok out ↔ reading = (.between, out) := by
  obtain ⟨state, done⟩ := reading
  cases state <;> simp [conclude, State.error?]

theorem statementsFrom_eq_conclude (escape : Char) :
    ∀ (ls : List Line) (state : State) (number : Nat),
      statementsFrom escape state number ls = conclude (feed escape state number ls)
  | [], .between, _ => rfl
  | [], .joining _ _, _ => rfl
  | [], .inBody _ _ _ _, _ => rfl
  | l :: rest, state, number => by
      rw [statementsFrom.eq_4]
      rcases hstep : step escape state number l with ⟨next, _ | s⟩
      · rw [feed_cons_none hstep]
        exact statementsFrom_eq_conclude escape rest next (number + 1)
      · rw [feed_cons_some hstep, conclude_cons]
        simp only [statementsFrom_eq_conclude escape rest next (number + 1)]

/-! ## Lines behind lines -/

theorem feed_append (escape : Char) (ls ms : List Line) (state : State) (number : Nat) :
    feed escape state number (ls ++ ms) =
      let before := feed escape state number ls
      let after := feed escape before.1 (number + ls.length) ms
      (after.1, before.2 ++ after.2) := by
  induction ls generalizing state number with
  | nil => rfl
  | cons l ls ih =>
      simp only [List.cons_append, feed, ih, List.append_assoc, List.length_cons]
      rw [Nat.add_assoc number 1, Nat.add_comm 1]

/-- Go on with lines, the first of them with a number, from what a step gives. -/
def goOn (escape : Char) (here : State × Option Statement) (number : Nat) (ls : List Line) :
    State × List Statement :=
  let later := feed escape here.1 number ls
  (later.1, here.2.toList ++ later.2)

theorem feed_cons (escape : Char) (state : State) (number : Nat) (l : Line) (ls : List Line) :
    feed escape state number (l :: ls) = goOn escape (step escape state number l) (number + 1) ls :=
  rfl

/-- Lines that do not change the state leave no trace. -/
theorem feed_idle {escape : Char} {state : State} {ls : List Line}
    (h : ∀ l ∈ ls, ∀ number, step escape state number l = (state, none)) (number : Nat) :
    feed escape state number ls = (state, []) := by
  induction ls generalizing number with
  | nil => rfl
  | cons l ls ih =>
      obtain ⟨hl, hls⟩ := List.forall_mem_cons.mp h
      rw [feed_cons_none (hl number)]
      exact ih hls (number + 1)

theorem feed_body (escape : Char) (s : Statement) {word : List Char} (words : List (List Char))
    {body : List Line} (h : ∀ l ∈ body, trim l ≠ word) (before : List Line) (number : Nat) :
    feed escape (.inBody s word words before) number body =
      (.inBody s word words (before ++ body), []) := by
  induction body generalizing before number with
  | nil => rw [List.append_nil, feed]
  | cons l body ih =>
      obtain ⟨hl, hbody⟩ := List.forall_mem_cons.mp h
      have hstep : step escape (.inBody s word words before) number l =
          (.inBody s word words (before ++ [l]), none) := by rw [step, if_neg hl]
      rw [feed_cons_none hstep, ih hbody, List.append_assoc, List.singleton_append]

/-- The body of a here-document is read up to the line that closes it. -/
theorem goOn_body (escape : Char) (s : Statement) {word : List Char} (words : List (List Char))
    {body : List Line} {close : Line} (hbody : ∀ l ∈ body, trim l ≠ word)
    (hclose : trim close = word) (number : Nat) (ls : List Line) :
    goOn escape (nextBody s (word :: words)) number (body ++ close :: ls) =
      goOn escape (nextBody (s.withBody body word) words) (number + body.length + 1) ls := by
  have hstep (n : Nat) : step escape (.inBody s word words body) n close =
      nextBody (s.withBody body word) words := by rw [step, if_pos hclose]
  rw [nextBody, goOn, feed_append, feed_body escape s words hbody, List.nil_append]
  simp only [feed_cons, hstep, Option.toList_none, List.nil_append]

/-! ## What a reading keeps -/

/-- If each step keeps a property of states, and the instruction that it completes has another, then
all instructions that a reading completes have that one. -/
theorem feed_forall (Inv : State → Prop) (P : Statement → Prop) {escape : Char} {ls : List Line}
    (hstep : ∀ l ∈ ls, ∀ state number, Inv state →
      Inv (step escape state number l).1 ∧ ∀ s ∈ (step escape state number l).2, P s)
    {state : State} (h : Inv state) (number : Nat) :
    ∀ s ∈ (feed escape state number ls).2, P s := by
  induction ls generalizing state number with
  | nil => exact fun _ hs => absurd hs List.not_mem_nil
  | cons l ls ih =>
      obtain ⟨hl, hls⟩ := List.forall_mem_cons.mp hstep
      obtain ⟨hnext, hdone⟩ := hl state number h
      intro s hs
      rcases List.mem_append.mp hs with hs | hs
      · exact hdone s (Option.mem_toList.mp hs)
      · exact ih hls hnext (number + 1) s hs

/-! ## Moving the numbers

A reading that starts `k` lines later goes through the same states, with `k` added wherever they
hold the number of a line. -/

def Statement.shift (k : Nat) (s : Statement) : Statement :=
  { s with line := s.line + k }

def State.shift (k : Nat) : State → State
  | .between => .between
  | .joining start pieces => .joining (start + k) pieces
  | .inBody statement word words body => .inBody (statement.shift k) word words body

def Error.shift (k : Nat) : Error → Error
  | .danglingContinuation line => .danglingContinuation (line + k)
  | .unterminatedHeredoc word line => .unterminatedHeredoc word (line + k)

theorem Error.reason_shift (k : Nat) (e : Error) : (e.shift k).reason = e.reason := by
  cases e <;> rfl

theorem Error.line_shift (k : Nat) (e : Error) : (e.shift k).line = e.line + k := by
  cases e <;> rfl

theorem State.error?_shift (k : Nat) (state : State) :
    (state.shift k).error? = state.error?.map (·.shift k) := by
  cases state <;> rfl

/-- What a step gives, `k` lines further down. -/
def shiftStep (k : Nat) (here : State × Option Statement) : State × Option Statement :=
  (here.1.shift k, here.2.map (·.shift k))

theorem nextBody_shift (k : Nat) (s : Statement) (words : List (List Char)) :
    nextBody (s.shift k) words = shiftStep k (nextBody s words) := by
  cases words <;> rfl

theorem finishPieces_shift (k start : Nat) (pieces : List (List Char)) :
    finishPieces (start + k) pieces = shiftStep k (finishPieces start pieces) := by
  simp only [finishPieces]
  split
  · rfl
  · exact nextBody_shift k (header start (joinPieces pieces)) _

theorem takeLine_shift (escape : Char) (k start : Nat) (pieces : List (List Char)) (l : Line) :
    takeLine escape (start + k) pieces l = shiftStep k (takeLine escape start pieces l) := by
  simp only [takeLine]
  split
  · rfl
  · exact finishPieces_shift k start _

theorem step_shift (escape : Char) (k : Nat) (state : State) (number : Nat) (l : Line) :
    step escape (state.shift k) (number + k) l = shiftStep k (step escape state number l) := by
  cases state with
  | between =>
      simp only [State.shift, step]
      split
      · rfl
      · exact takeLine_shift escape k number [] l
  | joining start pieces =>
      simp only [State.shift, step]
      split
      · rfl
      · exact takeLine_shift escape k start pieces l
  | inBody statement word words body =>
      simp only [State.shift, step]
      split
      · exact nextBody_shift k (statement.withBody body word) words
      · rfl

theorem feed_shift (escape : Char) (k : Nat) (ls : List Line) (state : State) (number : Nat) :
    feed escape (state.shift k) (number + k) ls =
      ((feed escape state number ls).1.shift k,
        (feed escape state number ls).2.map (·.shift k)) := by
  induction ls generalizing state number with
  | nil => rfl
  | cons l ls ih =>
      simp only [feed, step_shift, shiftStep, Nat.add_right_comm number k 1, ih, List.map_append]
      cases (step escape state number l).2 <;> rfl

/-! ## Open instructions -/

def State.start? : State → Option Nat
  | .between => none
  | .joining start _ => some start
  | .inBody statement _ _ _ => some statement.line

/-- The instruction that starts on a line is still open, or has just been completed. -/
def Advances (start : Nat) : State × Option Statement → Prop
  | (state, none) => state.start? = some start
  | (state, some s) => state = .between ∧ s.line = start

theorem nextBody_advances (s : Statement) (words : List (List Char)) :
    Advances s.line (nextBody s words) := by
  cases words with
  | nil => exact ⟨rfl, rfl⟩
  | cons word words => exact rfl

theorem takeLine_advances (escape : Char) (start : Nat) (pieces : List (List Char)) {l : Line}
    (hl : isSkipped l = false) : Advances start (takeLine escape start pieces l) := by
  simp only [takeLine]
  split
  · exact rfl
  · have hne := joinPieces_concat_ne_nil pieces hl
    simp only [finishPieces, List.isEmpty_iff, if_neg hne]
    exact nextBody_advances (header start _) _

theorem step_advances (escape : Char) {state : State} {start : Nat} (h : state.start? = some start)
    (number : Nat) (l : Line) : Advances start (step escape state number l) := by
  cases state with
  | between => exact absurd h (by simp [State.start?])
  | joining start' pieces =>
      obtain rfl : start' = start := by simpa [State.start?] using h
      simp only [step]
      split
      · exact rfl
      · rename_i hl
        exact takeLine_advances escape start' pieces (by simpa using hl)
  | inBody statement word words body =>
      obtain rfl : statement.line = start := by simpa [State.start?] using h
      simp only [step]
      split
      · exact nextBody_advances (statement.withBody body word) words
      · exact rfl

theorem step_between_skipped (escape : Char) (number : Nat) {l : Line} (hl : isSkipped l = true) :
    step escape .between number l = (.between, none) := by
  simp only [step, hl, if_true]

theorem step_between_advances (escape : Char) (number : Nat) {l : Line}
    (hl : isSkipped l = false) : Advances number (step escape .between number l) := by
  simp only [step, hl]
  exact takeLine_advances escape number [] hl

/-! ## Keywords -/

/-- The keyword of the open instruction is there, or will be: no piece begins with a blank. -/
def State.Named : State → Prop
  | .between => True
  | .joining _ pieces => ∀ p ∈ pieces, BeginsSolid p
  | .inBody statement _ _ _ => statement.Named

/-- What a step leaves open and what it completes is named. -/
def NamedStep (here : State × Option Statement) : Prop :=
  here.1.Named ∧ ∀ s ∈ here.2, s.Named

theorem nextBody_named {s : Statement} (hs : s.Named) (words : List (List Char)) :
    NamedStep (nextBody s words) := by
  cases words with
  | nil => exact ⟨trivial, fun _ h => Option.some.inj h ▸ hs⟩
  | cons word words => exact ⟨hs, fun _ h => absurd h (by simp [nextBody])⟩

theorem takeLine_named (escape : Char) (start : Nat) {pieces : List (List Char)}
    (hpieces : ∀ p ∈ pieces, BeginsSolid p) (l : Line) :
    NamedStep (takeLine escape start pieces l) := by
  have hall : ∀ last : Line, ∀ p ∈ pieces ++ [stripComment last], BeginsSolid p := by
    intro last p hp
    rcases List.mem_append.mp hp with hp | hp
    · exact hpieces p hp
    · rw [List.mem_singleton.mp hp]
      exact beginsSolid_trim _
  simp only [takeLine]
  split
  · exact ⟨hall _, fun _ h => nomatch h⟩
  · simp only [finishPieces]
    split
    · exact ⟨trivial, fun _ h => nomatch h⟩
    · rename_i hne
      exact nextBody_named (header_named start (by simpa using hne)
        (beginsSolid_joinPieces (hall _))) _

theorem step_named (escape : Char) {state : State} (h : state.Named) (number : Nat) (l : Line) :
    NamedStep (step escape state number l) := by
  cases state with
  | between =>
      simp only [step]
      split
      · exact ⟨trivial, fun _ h => nomatch h⟩
      · exact takeLine_named escape number (fun _ h => absurd h List.not_mem_nil) l
  | joining start pieces =>
      simp only [step]
      split
      · exact ⟨h, fun _ h => nomatch h⟩
      · exact takeLine_named escape start h l
  | inBody statement word words body =>
      simp only [step]
      split
      · exact nextBody_named (s := statement.withBody body word) h words
      · exact ⟨h, fun _ h => nomatch h⟩

theorem feed_named (escape : Char) (ls : List Line) {state : State} (h : state.Named)
    (number : Nat) : ∀ s ∈ (feed escape state number ls).2, s.Named :=
  feed_forall State.Named Statement.Named (fun l _ _ number h => step_named escape h number l)
    h number

end ContainerAudit.Dockerfile
