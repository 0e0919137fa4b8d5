/-!
# Folders

What a run of the program can read. A `FileReader` answers for every path; the reader of a `Folder`
knows the files of one folder, the one the program runs in, and what lies around it.

A path is followed part by part, from that folder or, if it begins with a slash, from the root. An
empty part and `.` stay in a folder, `..` leads to the folder around it. Nothing leads out of a
file, not even a slash at the end of the path. The first part that leads nowhere settles the
failure.

## Main definitions

* `ReadFailure` — why a file could not be read.
* `Place`, `Place.enter` — where a path has led so far, and one step further.
* `Folder.read` — the text a path leads to.
-/

namespace InfraGraph

/-- Why a file could not be read. -/
inductive ReadFailure where
  | absent
  /-- A part of the path that is not the last one is a file. -/
  | insideFile
  | isFolder
  /-- The path, or one of its parts, is longer than a path or a name may be. -/
  | longName
  | other (reason : String)
deriving DecidableEq, Repr

/-- The wording of a failure. -/
def ReadFailure.message : ReadFailure → String
  | .absent => "No such file or directory (os error 2)"
  | .insideFile => "Not a directory (os error 20)"
  | .isFolder => "Is a directory (os error 21)"
  | .longName => "File name too long (os error 36)"
  | .other reason => reason

/-- What there is to read: for a path, the text of its file or why there is none. -/
abbrev FileReader :=
  String → Except ReadFailure String

/-- What a name can stand for. -/
inductive Entry where
  | file (text : String)
  | folder (entries : List (String × Entry))

/-- Where a path has led. A folder comes with those around it, the root last. -/
inductive Place where
  | file (text : String)
  | folder (entries : List (String × Entry)) (around : List (List (String × Entry)))

/-- The number of bytes a name may have. -/
def nameLimit : Nat :=
  255

/-- The number of bytes a path may have. -/
def pathLimit : Nat :=
  4095

namespace Place

/-- The folder around a folder. The root lies in itself. -/
def leave (entries : List (String × Entry)) : List (List (String × Entry)) → Place
  | [] => .folder entries []
  | outer :: around => .folder outer around

/-- The place that one further part of a path leads to. -/
def enter (part : String) : Place → Except ReadFailure Place
  | .file _ => .error .insideFile
  | .folder entries around =>
    if part = "" || part = "." then .ok (.folder entries around)
    else if part = ".." then .ok (leave entries around)
    else if nameLimit < part.utf8ByteSize then .error .longName
    else
      match entries.lookup part with
      | none => .error .absent
      | some (.file text) => .ok (.file text)
      | some (.folder inner) => .ok (.folder inner (entries :: around))

end Place

/-- The files of a folder by name. -/
structure Folder where
  files : List (String × String)

namespace Folder

/-- The root of every system: folders of which nothing else is known, and the empty file
`/dev/null`. -/
def root : List (String × Entry) :=
  ("dev", .folder [("null", .file "")])
    :: ["bin", "etc", "home", "lib", "opt", "proc", "root", "sbin", "sys", "tmp", "usr", "var"].map
      fun name => (name, .folder [])

/-- The place a path starts from. The folder lies in another one, of which nothing is known. -/
def start (folder : Folder) (path : String) : Place :=
  if path.startsWith "/" then .folder root []
  else .folder (folder.files.map fun (name, text) => (name, .file text)) [[], root]

/-- The parts of a path between its slashes. -/
def pathParts : List Char → List (List Char)
  | [] => [[]]
  | c :: rest =>
    match c == '/', pathParts rest with
    | true, parts => [] :: parts
    | false, [] => [[c]]
    | false, part :: parts => (c :: part) :: parts

/-- The place a path leads to. -/
def place (folder : Folder) (path : String) : Except ReadFailure Place :=
  if path = "" then .error .absent
  else if pathLimit < path.utf8ByteSize then .error .longName
  else
    (pathParts path.toList).foldlM (fun place part => place.enter (String.ofList part))
      (folder.start path)

/-- What a file with that path holds. -/
def read (folder : Folder) : FileReader := fun path =>
  match folder.place path with
  | .error failure => .error failure
  | .ok (.file text) => .ok text
  | .ok (.folder _ _) => .error .isFolder

end Folder

end InfraGraph
