import SharpSource.Emitter.Basic

/-!
# Snippets

The emitter that writes a given text into the body of every target, with the
directives, attributes and interfaces that the text needs.
-/

namespace SharpSource

/-- A text for the body of a target, and what it needs around it. -/
structure Snippet where
  name : String
  text : String
  outerUsings : List String := []
  innerUsings : List String := []
  attributes : List String := []
  interfaces : List String := []
  deriving DecidableEq, Repr, Inhabited

/-- Writes a snippet, without the blanks it ends in; a blank one writes
nothing. -/
def Snippet.write (s : Snippet) (w : Writer) : Writer :=
  let text := Text.trimEnd s.text
  if text = "" then w else w.line text

/-- The emitter that writes a snippet. -/
def Emitter.snippet (s : Snippet) : Emitter where
  name := s.name
  outerUsings _ := s.outerUsings
  innerUsings _ := s.innerUsings
  attributes _ := s.attributes
  interfaces _ := s.interfaces
  write _ w := .ok (s.write w)

end SharpSource
