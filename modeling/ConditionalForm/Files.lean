import ConditionalForm.Json.Reader
import ConditionalForm.Text.Split

set_option autoImplicit false

namespace ConditionalForm

inductive FileNode where
  | file (bytes : ByteArray)
  | directory

abbrev FilePath := List String

structure FileTree where
  nodes : List (FilePath × FileNode)

namespace FilePath

def follow (path : FilePath) (segment : String) : FilePath :=
  if segment == "" || segment == "." then path
  else if segment == ".." && path.getLast?.all (· == "..") then path ++ [segment]
  else if segment == ".." then path.dropLast
  else path ++ [segment]

def origin (text : String) : FilePath := if text.startsWith "/" then ["/"] else []

def ofString (text : String) : FilePath := (Text.split '/' text).foldl follow (origin text)

def append (base relative : String) : String :=
  if base.isEmpty then relative
  else if base.endsWith "/" then base ++ relative
  else base ++ "/" ++ relative

def before : FilePath → FilePath → Bool
  | [], _ => true
  | _ :: _, [] => false
  | a :: as, b :: bs => if a == b then before as bs else a < b

def insertOrdered (path : FilePath) : List FilePath → List FilePath
  | [] => [path]
  | other :: tail =>
      if path.before other then path :: other :: tail else other :: insertOrdered path tail

def ordered (paths : List FilePath) : List FilePath := paths.foldr insertOrdered []

end FilePath

namespace FileTree

def node? (tree : FileTree) (path : FilePath) : Option FileNode :=
  match tree.nodes.find? fun node => node.1 == path with
  | some node => some node.2
  | none =>
      if path.isEmpty || tree.nodes.any fun node => path.isPrefixOf node.1 then some .directory
      else none

def isDirectory (tree : FileTree) (path : FilePath) : Bool :=
  match tree.node? path with
  | some .directory => true
  | _ => false

def at? (tree : FileTree) (path : String) : Option FileNode :=
  let way := (Text.split '/' path).foldlM (fun way segment =>
    if tree.isDirectory way then some (way.follow segment) else none) (FilePath.origin path)
  way.bind tree.node?

def filesBelow (tree : FileTree) (directory : FilePath) : List FilePath :=
  FilePath.ordered (tree.nodes.filterMap fun node =>
    match node.2 with
    | .file _ =>
        if directory.isPrefixOf node.1 && directory != node.1 then
          some (node.1.drop directory.length)
        else none
    | .directory => none)

end FileTree

inductive LoadError where
  | notFound (path : String)
  | isDirectory (path : String)
  | notText (path : String)
  | invalidJson
  | notAnObject (kind : String)
deriving DecidableEq, Repr

namespace LoadError

def message : LoadError → String
  | .notFound path => "file not found: " ++ path
  | .isDirectory path => "cannot read " ++ path ++ ": Is a directory (os error 21)"
  | .notText path => "cannot read " ++ path ++ ": stream did not contain valid UTF-8"
  | .invalidJson => "invalid JSON"
  | .notAnObject kind => "expected a JSON object of values, got " ++ kind

def exitCode : LoadError → Nat
  | .notFound _ => 3
  | .isDirectory _ => 3
  | .notText _ => 3
  | .invalidJson => 2
  | .notAnObject _ => 2

end LoadError

def loadText (text : String) : Except LoadError Json :=
  match Json.read? text with
  | some value => .ok value
  | none => .error .invalidJson

def loadDocument (tree : FileTree) (path : String) : Except LoadError Json :=
  match tree.at? path with
  | none => .error (.notFound path)
  | some .directory => .error (.isDirectory path)
  | some (.file bytes) =>
      match String.fromUTF8? bytes with
      | some text => loadText text
      | none => .error (.notText path)

def loadValues (tree : FileTree) (path : String) : Except LoadError Members :=
  match loadDocument tree path with
  | .ok (.object members) => .ok members
  | .ok other => .error (.notAnObject other.kind)
  | .error e => .error e

end ConditionalForm
