/-!
# Relay commands

A text that starts with the relay's whisper command is for one participant: behind the command come
a space, the participant's name, another space, and what is to be delivered, which may hold more
spaces. Every other text is for all.

* `RelayCommand.write` -- the text of a whisper.
* `RelayCommand.parse` -- how a relay takes a text.
-/

namespace TextTunnel

/-- How a relay takes a text. -/
inductive RelayCommand where
  /-- For the named participant. -/
  | whisper (name body : String)
  /-- A whisper without a name or without anything to deliver. -/
  | incomplete
  /-- For everybody. -/
  | broadcast
  deriving DecidableEq, Repr

namespace RelayCommand

/-- The text of a whisper. -/
def write (command name body : String) : String :=
  command ++ " " ++ name ++ " " ++ body

/-- What stands before the first space, and what behind it, if there is one. -/
def cutAtSpace : List Char → List Char × Option (List Char)
  | [] => ([], none)
  | c :: cs =>
    if c = ' ' then ([], some cs)
    else
      let (before, after) := cutAtSpace cs
      (c :: before, after)

/-- How a relay with the given whisper command takes a text. -/
def parse (command text : String) : RelayCommand :=
  match cutAtSpace text.toList with
  | (first, rest) =>
    if first ≠ command.toList then .broadcast
    else
      match rest.map cutAtSpace with
      | some (name, some body) => .whisper (String.ofList name) (String.ofList body)
      | _ => .incomplete

/-- What stands behind the second space, if there are two. -/
def body? (text : String) : Option String :=
  match (cutAtSpace text.toList).2.map cutAtSpace with
  | some (_, some body) => some (String.ofList body)
  | _ => none

end RelayCommand

end TextTunnel
