/-!
# Source files

The text of the files a unit was read from, kept only to show lines of it. A line is cut out of the
text by byte offsets: it starts where the text starts or behind a newline character, and it ends
before the next newline or where the text ends. So a text with `n` newlines has `n + 1` lines, the
last of which is empty when the text ends with a newline.

Offsets count bytes and not characters, and a cut inside a character gives nothing.

## Main definitions

* `SourceFile.lineStarts` — where the lines start.
* `SourceFile.line?` — a line by its number, counted from one.
* `SourceCache.file?` — a file by its id, which is its place in the order of adding.
-/

namespace InfraGraph

namespace Text

/-- The text between two byte offsets; none unless these are in order and each of them stands
between two characters or at an end of the text. -/
def slice? (text : String) (start stop : Nat) : Option String :=
  if h : String.Pos.Raw.IsValid text ⟨start⟩ ∧ String.Pos.Raw.IsValid text ⟨stop⟩ ∧
      start ≤ stop then
    some (text.slice (text.pos ⟨start⟩ h.1) (text.pos ⟨stop⟩ h.2.1) h.2.2).copy
  else none

/-- The byte offsets of the newlines of a text, its first character being at `offset`. -/
def newlineOffsets (offset : Nat) : List Char → List Nat
  | [] => []
  | c :: rest =>
    if c = '\n' then offset :: newlineOffsets (offset + c.utf8Size) rest
    else newlineOffsets (offset + c.utf8Size) rest

end Text

/-- A named text. -/
structure SourceFile where
  name : String
  text : String

namespace SourceFile

/-- The byte offsets where the lines of a file start, in order. -/
def lineStarts (f : SourceFile) : List Nat :=
  0 :: (Text.newlineOffsets 0 f.text.toList).map (· + 1)

/-- The byte offsets between which a line stands. It ends one byte before the next line starts; the
last one ends with the text. -/
def lineRange? (f : SourceFile) (number : UInt32) : Option (Nat × Nat) :=
  if number = 0 then none
  else
    let index := number.toNat - 1
    f.lineStarts[index]?.map fun start =>
      (start, (f.lineStarts[index + 1]?.map (· - 1)).getD f.text.utf8ByteSize)

/-- Line `number` of a file, counted from one. -/
def line? (f : SourceFile) (number : UInt32) : Option String :=
  (f.lineRange? number).bind fun (start, stop) => Text.slice? f.text start stop

end SourceFile

/-- The files of a unit in the order they were added. -/
structure SourceCache where
  files : List SourceFile

namespace SourceCache

/-- No file at all. -/
def empty : SourceCache :=
  ⟨[]⟩

/-- The cache with one more file. -/
def add (cache : SourceCache) (name text : String) : SourceCache :=
  ⟨cache.files ++ [⟨name, text⟩]⟩

/-- The file with that id. -/
def file? (cache : SourceCache) (id : UInt32) : Option SourceFile :=
  cache.files[id.toNat]?

end SourceCache

end InfraGraph
