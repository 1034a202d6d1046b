import SharpSource.Catalog

/-!
# Source files

What generation ends in: a file is a name, which may hold slashes, and a text.
Files are collected under their names.
-/

namespace SharpSource

/-- A generated file. -/
structure SourceFile where
  /-- The name, a path below the directory that the file is written to. -/
  name : String
  /-- The text of the file. -/
  content : String
  deriving DecidableEq, Repr, Inhabited

/-- Generated files, each name once, in the order of their first
registration. -/
abbrev Collection := Catalog String

namespace Collection

/-- The collection with a file in it. -/
def register (c : Collection) (file : SourceFile) : Collection :=
  c.put file.name file.content

/-- The collection with several files in it, one after the other. -/
def extend (c : Collection) (files : List SourceFile) : Collection :=
  files.foldl register c

/-- The collection of several files. -/
def ofFiles (files : List SourceFile) : Collection :=
  extend .empty files

end Collection

end SharpSource
