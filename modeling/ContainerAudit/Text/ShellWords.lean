/-!
# Shell words

Splitting a command line the way a shell does: at spaces, tabs and line ends outside quotes, with
quotes and backslashes taken away. Fails when a quote is not closed or a backslash ends the text.
-/

namespace ContainerAudit.Text

/-- The characters that separate shell words. -/
def isShellBlank (c : Char) : Bool :=
  c = ' ' || c = '\t' || c = '\r' || c = '\n'

/-- Where the splitting stands between two characters. -/
inductive ShellState where
  /-- Outside any word. -/
  | between
  /-- Inside a word, outside quotes. -/
  | inWord
  /-- Between quotes of the given kind. -/
  | inQuotes (quote : Char)
  /-- After a backslash outside quotes. -/
  | escaped
  /-- After a backslash between double quotes. -/
  | escapedInQuotes
  deriving DecidableEq, Repr

/-- Splitting from a state, where `word` is the part of the current word read so far, backwards. -/
def shellWordsFrom : ShellState → List Char → List Char → Option (List (List Char))
  | .between, _, [] => some []
  | .inWord, word, [] => some [word.reverse]
  | .inQuotes _, _, [] => none
  | .escaped, _, [] => none
  | .escapedInQuotes, _, [] => none
  | .between, _, c :: rest =>
    if isShellBlank c then shellWordsFrom .between [] rest
    else if c = '\\' then shellWordsFrom .escaped [] rest
    else if c = '\'' ∨ c = '"' then shellWordsFrom (.inQuotes c) [] rest
    else shellWordsFrom .inWord [c] rest
  | .inWord, word, c :: rest =>
    if isShellBlank c then (shellWordsFrom .between [] rest).map (word.reverse :: ·)
    else if c = '\\' then shellWordsFrom .escaped word rest
    else if c = '\'' ∨ c = '"' then shellWordsFrom (.inQuotes c) word rest
    else shellWordsFrom .inWord (c :: word) rest
  | .inQuotes quote, word, c :: rest =>
    if c = quote then shellWordsFrom .inWord word rest
    else if c = '\\' ∧ quote = '"' then shellWordsFrom .escapedInQuotes word rest
    else shellWordsFrom (.inQuotes quote) (c :: word) rest
  | .escaped, word, c :: rest => shellWordsFrom .inWord (c :: word) rest
  | .escapedInQuotes, word, c :: rest =>
    if c = '\\' ∨ c = '"' then shellWordsFrom (.inQuotes '"') (c :: word) rest
    else shellWordsFrom (.inQuotes '"') (c :: '\\' :: word) rest

/-- The shell words of a text, if its quotes and backslashes are complete. -/
def shellWords? (s : List Char) : Option (List (List Char)) :=
  shellWordsFrom .between [] s

end ContainerAudit.Text
