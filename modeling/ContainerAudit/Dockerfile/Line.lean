import ContainerAudit.Text.Blank
import ContainerAudit.Text.LetterCase

/-!
# Lines of a Dockerfile

What a single line tells: whether it is skipped, whether it goes on in the next one, where its
comment starts, and which here-documents it announces.
-/

namespace ContainerAudit.Dockerfile

open ContainerAudit.Text (trim trimEnd isBlank)

/-- A line without its end. -/
abbrev Line := List Char

/-- A blank line or a comment. -/
def isSkipped (l : Line) : Bool :=
  match trim l with
  | [] => true
  | c :: _ => c = '#'

/-! ## Quotes -/

/-- Inside quotes of a kind, or outside. -/
abbrev Quotes := Option Char

/-- The state after a character, where `previous` is the one before it. A quote that a backslash
precedes does not close. -/
def nextQuotes (quotes : Quotes) (previous c : Char) : Quotes :=
  match quotes with
  | some quote => if c = quote ∧ previous ≠ '\\' then none else some quote
  | none => if c = '\'' ∨ c = '"' then some c else none

/-- The character stands outside quotes and is no quote. -/
def isBare (quotes : Quotes) (c : Char) : Bool :=
  quotes.isNone && c ≠ '\'' && c ≠ '"'

/-! ## Comments -/

/-- The line up to a comment: a number sign outside quotes, at the start of the line or after a
blank. -/
def beforeComment (quotes : Quotes) (previous : Char) : Line → Line
  | [] => []
  | c :: rest =>
    if isBare quotes c && c = '#' && isBlank previous then []
    else c :: beforeComment (nextQuotes quotes previous c) c rest

/-- The line without its comment and without blanks around it. -/
def stripComment (l : Line) : Line :=
  trim (beforeComment none ' ' l)

/-! ## Here-documents -/

def isNameChar (c : Char) : Bool :=
  c.isAlphanum || c = '_'

/-- A name at the front: a letter or low line, then letters, digits and low lines. -/
def takeName (s : List Char) : List Char × List Char :=
  match s with
  | [] => ([], [])
  | c :: _ => if c.isDigit then ([], s) else (s.takeWhile isNameChar, s.dropWhile isNameChar)

/-- The word of a here-document marker at the front: `<<`, an optional hyphen, and a name with or
without quotes around it. -/
def markerWord? (s : List Char) : Option (List Char) :=
  match s with
  | '<' :: '<' :: rest =>
    let rest := match rest with
      | '-' :: rest => rest
      | rest => rest
    match rest with
    | [] => none
    | c :: after =>
      if c = '\'' ∨ c = '"' then
        let (word, rest) := takeName after
        if !word.isEmpty && rest.head? = some c then some word else none
      else
        let (word, _) := takeName rest
        if word.isEmpty then none else some word
  | _ => none

/-- The characters before which a here-document marker can start. -/
def startsMarker (previous : Char) : Bool :=
  [' ', '\t', '|', ';', '&'].contains previous

/-- The words of the here-document markers outside quotes, in order. -/
def heredocWordsFrom (quotes : Quotes) (previous : Char) : List Char → List (List Char)
  | [] => []
  | c :: rest =>
    let later := heredocWordsFrom (nextQuotes quotes previous c) c rest
    if isBare quotes c && startsMarker previous then
      match markerWord? (c :: rest) with
      | some word => word :: later
      | none => later
    else later

/-- The words of the here-document markers in arguments. -/
def heredocWords (arguments : List Char) : List (List Char) :=
  heredocWordsFrom none ' ' arguments

/-! ## Directives -/

/-- A directive: a comment with a name, an equals sign and a value. -/
def directive? (l : Line) : Option (List Char × List Char) :=
  match trim l with
  | '#' :: rest =>
    let rest := rest.dropWhile isBlank
    let name := rest.takeWhile Char.isAlphanum
    match name, (rest.drop name.length).dropWhile isBlank with
    | c :: _, '=' :: value => if c.isAlpha then some (name, trim value) else none
    | _, _ => none
  | _ => none

/-- The escape character of a file: a backslash, or the one that the directives at its head set. -/
def escapeChar : List Line → Char
  | [] => '\\'
  | l :: rest =>
    match directive? l with
    | none => '\\'
    | some (name, value) =>
      if Text.lower name = "escape".toList then
        match value with
        | ['\\'] => '\\'
        | ['\x60'] => '\x60'
        | _ => escapeChar rest
      else escapeChar rest

end ContainerAudit.Dockerfile
