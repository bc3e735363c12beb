import TagExpansion.Text.Blank
import TagExpansion.Toml.Quoted

/-
This file reads the keys of a TOML document.

A key is a list of names with dots between them. A name stands between quotes, or it
consists of letters, digits, dashes and underscores.
-/

namespace TagExpansion.Toml

/-- The greatest number of names in a key. -/
def maxNames : Nat := 100

/-- The characters of a name without quotes. -/
def isBareKeyChar (c : Char) : Bool := c.isAlphanum || c == '-' || c == '_'

/-- A name of a key. -/
def keyName (text : Text) : Except Error (Text × Text) :=
  match skipSpaces text with
  | '"' :: rest => string '"' false rest
  | '\'' :: rest => string '\'' false rest
  | start =>
    let written := start.takeWhile fun c => isBareKeyChar c || isSpace c
    let name := Text.strip written
    if name.isEmpty || name.any isSpace then .error .malformed
    else .ok (name, start.drop written.length)

/-- A key of at most so many names. -/
def keyNames : Nat → Text → Except Error (List Text × Text)
  | 0, _ => .error .malformed
  | more + 1, text => do
    let (name, rest) ← keyName text
    match skipSpaces rest with
    | '.' :: rest => do
      let (others, rest) ← keyNames more rest
      return (name :: others, rest)
    | rest => return ([name], rest)

/-- A key. -/
def key (text : Text) : Except Error (List Text × Text) := keyNames maxNames text

/-- The key and the separator of an entry. -/
def entryKey (text : Text) : Except Error (List Text × Text) := do
  let (names, rest) ← key text
  match skipSpaces rest with
  | '=' :: rest => return (names, skipSpaces rest)
  | _ => throw .malformed

end TagExpansion.Toml
