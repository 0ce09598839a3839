import Flak.Runner.CommandLine

namespace Flak

/-!
# Folders in memory

A `Folder` holds the texts of files, so that the program can run without a file system: a path is
followed component by component, and leads to a text or to the `ReadFailure` that the program
reports.

* `Folder.enter` — one component of a path. Only a directory has anything in it.
* `Folder.find` — what a path leads to, or why it leads nowhere.
* `Folder.surroundings` — the program in a folder.
-/

/-- Texts of `files` by their paths from the working directory down. -/
structure Folder where
  files : List (String × String)

namespace Folder

/-- What a path can lead to. A `directory` is given by the names on the way from the root. -/
inductive Place where
  | file (text : String)
  | directory (names : List String)
  deriving DecidableEq

/-- The most bytes that a name may have; a longer one is a `nameTooLong`. -/
def nameLimit : Nat := 255

/-- One more byte than a path may have; a longer one is a `nameTooLong`. -/
def pathLimit : Nat := 4096

/-! ### What there is -/

/-- The names on the way from the root to the working directory, where `find` starts unless the path
    does at the root. -/
def home : List String := ["tmp", "flak"]

/-- The components of the `path` that lead from a directory to another place. -/
def steps (path : String) : List String :=
  (path.splitOn "/").filter fun component => !component.isEmpty && component != "."

/-- Every file, with the names on the way from the root: those of the `folder`, and the one that is
    always there and always empty. -/
def leaves (folder : Folder) : List (List String × String) :=
  folder.files.map (fun file => (home ++ steps file.1, file.2)) ++ [(["dev", "null"], "")]

/-- The place with these `names` on the way from the root. A directory is there because of what is
    in it. -/
def place? (folder : Folder) (names : List String) : Option Place :=
  match folder.leaves.find? fun leaf => leaf.1 = names with
  | some leaf => some (.file leaf.2)
  | none =>
      if (home :: folder.leaves.map (·.1)).any names.isPrefixOf then some (.directory names)
      else none

/-! ### Paths -/

/-- Follows one `component` of a path. The root is the directory above itself. -/
def enter (folder : Folder) (component : String) : Place → Except ReadFailure Place
  | .file _ => .error .notDirectory
  | .directory names =>
      if component ∈ ["", "."] then .ok (.directory names)
      else if component = ".." then .ok (.directory names.dropLast)
      else if nameLimit < component.utf8ByteSize then .error .nameTooLong
      else match folder.place? (names ++ [component]) with
        | some place => .ok place
        | none => .error .notFound

/-- Follows the components of a path, one after another by `enter`. -/
def follow (folder : Folder) : List String → Place → Except ReadFailure Place
  | [], place => .ok place
  | component :: rest, place => do folder.follow rest (← folder.enter component place)

/-- What the `path` leads to, from the root if it starts there and from `home` otherwise. -/
def find (folder : Folder) (path : String) : Except ReadFailure Place :=
  if path.contains '\x00' then .error .invalidName
  else if path.isEmpty then .error .notFound
  else if pathLimit ≤ path.utf8ByteSize then .error .nameTooLong
  else folder.follow (path.splitOn "/")
    (.directory (if path.startsWith "/" then [] else home))

/-- The text of the file that the `path` leads to. -/
def read (folder : Folder) (path : String) : Except ReadFailure String :=
  match folder.find path with
  | .ok (.file text) => .ok text
  | .ok (.directory _) => .error .isDirectory
  | .error reason => .error reason

/-! ### The program in a folder -/

/-- The program in the `folder`. The state is what it has not read of its input, which can be read
    once. Dice that nobody has seeded show zeros. -/
def surroundings (folder : Folder) :
    CommandLine.Surroundings (StateM (Except ReadFailure String)) where
  fileText path := pure (folder.read path)
  inputText input := (input, .ok "")
  chance := pure GameDice.zeros

end Folder

end Flak
