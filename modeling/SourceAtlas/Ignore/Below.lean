import SourceAtlas.Path

/-!
# Paths below a directory

Globs are matched with the path of an entry below the directory of the ignore file. Both are known
as they are written, and the path below the directory is what remains behind the text of the
directory. A dot and a slash at the start of a path are passed over twice for an entry, but once
for a directory: behind a root that starts with several of them nothing is taken off.
-/

namespace SourceAtlas.Ignore

/-- The text behind a given start, or all of it. -/
def dropStart (start text : List Char) : List Char :=
  if start.isPrefixOf text then text.drop start.length else text

/-- The text without a dot and a slash at its start. -/
def dropHere (text : List Char) : List Char :=
  dropStart ['.', '/'] text

/-- The path of an entry below a directory. -/
def below (directory entry : Path) : List Char :=
  let start := dropHere directory.text.toList
  let path := dropHere (dropHere entry.text.toList)
  if Path.same ⟨String.ofList start⟩ ⟨"."⟩ || !path.contains '/' || !start.isPrefixOf path then path
  else dropStart ['/'] (path.drop start.length)

end SourceAtlas.Ignore
