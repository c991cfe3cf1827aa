import TextTunnel.Text.Digits

/-!
# Blanks, comments, strings and keys in TOML

Blanks are spaces and tabs; a line ends with a line feed, which a carriage return may precede. No
other control character may stand anywhere.

* `blank`, `lineBreak?`, `lineEnd?` -- what stands between the parts of a document.
* `string?` -- the four kinds of strings: with escapes or literal, on one line or on several. A line
  break right behind the opening quotes of the latter is dropped, and all others become line feeds.
* `key?` -- names joined by dots, each bare or quoted.

Each reader answers with what it has read and with the characters behind it.
-/

namespace TextTunnel.Toml

/-! ## 1. Between the parts -/

/-- Whether a character is a blank. -/
def isBlank (c : Char) : Bool :=
  c = ' ' || c = '\t'

/-- Skips blanks. -/
def blank (cs : List Char) : List Char :=
  cs.dropWhile isBlank

/-- What follows a line break. -/
def lineBreak? : List Char → Option (List Char)
  | '\n' :: cs => some cs
  | '\r' :: '\n' :: cs => some cs
  | _ => none

/-- Whether a character may stand in a comment: no control character but the tab. -/
def isCommentChar (c : Char) : Bool :=
  c = '\t' || (0x20 ≤ c.toNat && c.toNat != 0x7F)

/-- Skips a comment. -/
def comment : List Char → List Char
  | '#' :: cs => cs.dropWhile isCommentChar
  | cs => cs

/-- What follows the end of a line: blanks, a comment, and a line break or the end of the text. -/
def lineEnd? (cs : List Char) : Option (List Char) :=
  match comment (blank cs) with
  | [] => some []
  | cs => lineBreak? cs

/-- Skips blanks, comments and line breaks; a comment has to end with a line break. -/
def betweenItems : Nat → List Char → Option (List Char)
  | 0, _ => none
  | fuel + 1, cs =>
    match blank cs with
    | '#' :: cs => do
      let cs ← lineBreak? (cs.dropWhile isCommentChar)
      betweenItems fuel cs
    | cs =>
      match lineBreak? cs with
      | some cs => betweenItems fuel cs
      | none => some cs

/-! ## 2. Escapes -/

/-- The number that hexadecimal digits denote. -/
def hexNumber? (cs : List Char) : Option Nat :=
  cs.foldlM (fun n c => (fun d => 16 * n + d) <$> Text.hexValue? c) 0

/-- The character with the given number, if there is one. -/
def scalar? (n : Nat) : Option Char :=
  if n < 0xD800 ∨ (0xE000 ≤ n ∧ n < 0x110000) then some (Char.ofNat n) else none

/-- An escape by number of the given width. -/
def numberedEscape? (width : Nat) (cs : List Char) : Option (Char × List Char) :=
  if cs.length < width then none
  else do
    let n ← hexNumber? (cs.take width)
    let c ← scalar? n
    return (c, cs.drop width)

/-- The character that an escape stands for, behind its backslash. -/
def escape? : List Char → Option (Char × List Char)
  | 'b' :: cs => some ('\x08', cs)
  | 't' :: cs => some ('\t', cs)
  | 'n' :: cs => some ('\n', cs)
  | 'f' :: cs => some ('\x0C', cs)
  | 'r' :: cs => some ('\r', cs)
  | '"' :: cs => some ('"', cs)
  | '\\' :: cs => some ('\\', cs)
  | 'u' :: cs => numberedEscape? 4 cs
  | 'U' :: cs => numberedEscape? 8 cs
  | _ => none

/-! ## 3. Strings on one line -/

/-- The rest of a string with escapes, behind the characters `done`, the latest first. -/
def basicBody? : Nat → List Char → List Char → Option (List Char × List Char)
  | 0, _, _ => none
  | fuel + 1, done, cs =>
    match cs with
    | '"' :: cs => some (done.reverse, cs)
    | '\\' :: cs => do
      let (c, cs) ← escape? cs
      basicBody? fuel (c :: done) cs
    | c :: cs => if isCommentChar c then basicBody? fuel (c :: done) cs else none
    | [] => none

/-- A literal string, behind its opening quote. -/
def literalBody? (cs : List Char) : Option (List Char × List Char) :=
  let isLiteral := fun c => isCommentChar c && c != '\''
  match cs.dropWhile isLiteral with
  | '\'' :: rest => some (cs.takeWhile isLiteral, rest)
  | _ => none

/-! ## 4. Strings on several lines -/

/-- What follows a backslash at the end of a line: all blanks and line breaks behind it. -/
def afterContinuation? (cs : List Char) : Option (List Char) := do
  let cs ← lineBreak? (blank cs)
  return cs.dropWhile fun c => isBlank c || c = '\n' || c = '\r'

/-- Whether the line breaks among skipped characters are whole: no carriage return stands alone. -/
def wholeLineBreaks : List Char → Bool
  | '\r' :: '\n' :: cs => wholeLineBreaks cs
  | '\r' :: _ => false
  | _ :: cs => wholeLineBreaks cs
  | [] => true

/-- The rest of a string of several lines that ends with three of the given quotes; up to two more
quotes in front of them belong to the string. -/
def linesBody? (quote : Char) (escapes : Bool) :
    Nat → List Char → List Char → Option (List Char × List Char)
  | 0, _, _ => none
  | fuel + 1, done, cs =>
    match lineBreak? cs with
    | some cs => linesBody? quote escapes fuel ('\n' :: done) cs
    | none =>
      match cs with
      | [] => none
      | c :: cs' =>
        if c = quote then
          let run := (cs.takeWhile (· == quote)).length
          if run < 3 then linesBody? quote escapes fuel (quote :: done) cs'
          else if run < 6 then
            some ((List.replicate (run - 3) quote ++ done).reverse, cs.drop run)
          else none
        else if escapes && c = '\\' then
          match afterContinuation? cs' with
          | some rest =>
            if wholeLineBreaks (cs'.take (cs'.length - rest.length)) then
              linesBody? quote escapes fuel done rest
            else none
          | none => do
            let (c, rest) ← escape? cs'
            linesBody? quote escapes fuel (c :: done) rest
        else if isCommentChar c then linesBody? quote escapes fuel (c :: done) cs'
        else none

/-- A string of several lines, behind its opening quotes. -/
def lines? (quote : Char) (escapes : Bool) (cs : List Char) : Option (List Char × List Char) :=
  let cs := (lineBreak? cs).getD cs
  linesBody? quote escapes (cs.length + 1) [] cs

/-- A string of any kind. -/
def string? : List Char → Option (String × List Char)
  | '"' :: '"' :: '"' :: cs => (fun r => (String.ofList r.1, r.2)) <$> lines? '"' true cs
  | '\'' :: '\'' :: '\'' :: cs => (fun r => (String.ofList r.1, r.2)) <$> lines? '\'' false cs
  | '"' :: cs => (fun r => (String.ofList r.1, r.2)) <$> basicBody? (cs.length + 1) [] cs
  | '\'' :: cs => (fun r => (String.ofList r.1, r.2)) <$> literalBody? cs
  | _ => none

/-! ## 5. Keys -/

/-- Whether a character may stand in a name without quotes. -/
def isBareKeyChar (c : Char) : Bool :=
  ('a' ≤ c && c ≤ 'z') || ('A' ≤ c && c ≤ 'Z') || ('0' ≤ c && c ≤ '9') || c = '-' || c = '_'

/-- One name: bare, or a string on one line. -/
def name? : List Char → Option (String × List Char)
  | '"' :: cs => (fun r => (String.ofList r.1, r.2)) <$> basicBody? (cs.length + 1) [] cs
  | '\'' :: cs => (fun r => (String.ofList r.1, r.2)) <$> literalBody? cs
  | cs =>
    match cs.takeWhile isBareKeyChar with
    | [] => none
    | name => some (String.ofList name, cs.dropWhile isBareKeyChar)

/-- Names joined by dots, with blanks around each, behind those in `done`, the latest first. -/
def names? : Nat → List String → List Char → Option (List String × List Char)
  | 0, _, _ => none
  | fuel + 1, done, cs => do
    let (name, cs) ← name? (blank cs)
    match blank cs with
    | '.' :: cs => names? fuel (name :: done) cs
    | cs => return ((name :: done).reverse, cs)

/-- The most levels that keys and values may nest. -/
def maxDepth : Nat := 79

/-- A key: its names, of which there are not too many. Blanks around it are skipped. -/
def key? (cs : List Char) : Option (List String × List Char) := do
  let (names, cs) ← names? (cs.length + 1) [] cs
  if names.length ≤ maxDepth then some (names, cs) else none

end TextTunnel.Toml
