import TagExpansion.Text.LetterCase
import TagExpansion.Text.Quoted

/-
This file has the names of tags: runs of ASCII letters, in which letter case
does not count. The canonical form of a name is in lowercase.
-/

namespace TagExpansion.Tag

/-- Whether a text can be the name of a tag. -/
def isName (name : Text) : Bool := !name.isEmpty && name.all Char.isAlpha

/-- The canonical form of a name, if the text can be one. -/
def canonical? (name : Text) : Option Text := if isName name then some (Text.lower name) else none

end TagExpansion.Tag
