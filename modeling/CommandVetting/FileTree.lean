import CommandVetting.Text.Lines

/-!
# A tree of files

As much of a file system as it takes to create a directory with its parents and a file in it. A
path is walked name by name, and the first name that cannot be passed decides the error.

* `OsError`: the errors, with their numbers and texts;
* `FileTree`: files and folders by their places, and the place where relative paths start;
* `FileTree.fresh`: an empty folder in a system with **the devices that every system has**;
* `FileTree.makeFolders`: creates a folder **and the folders above it**; one that is there is fine,
  and **those that were created stay** if the next one cannot be;
* `FileTree.createFile`: creates an empty file, or empties one, and tells its place.
-/

namespace CommandVetting

/-- An error of the operating system. -/
structure OsError where
  number : Nat
  text : Text
  deriving DecidableEq, Repr

namespace OsError

def notFound : OsError := ⟨2, "No such file or directory"⟩
def alreadyExists : OsError := ⟨17, "File exists"⟩
def notDirectory : OsError := ⟨20, "Not a directory"⟩
def isDirectory : OsError := ⟨21, "Is a directory"⟩
def nameTooLong : OsError := ⟨36, "File name too long"⟩

def message (e : OsError) : Text := e.text ++ " (os error " ++ Text.ofNat e.number ++ ")"

end OsError

/-- What is found at a place. -/
inductive FileNode where
  | file (lines : List Text)
  | folder
  /-- A folder in which nothing can be created. -/
  | closed
  deriving DecidableEq, Repr

/-- A place: the names on the way from the root. -/
abbrev Place := List Text

/-- Files and folders. The root is a folder and has no entry. -/
structure FileTree where
  entries : List (Place × FileNode)
  /-- The folder where relative paths start. -/
  here : Place
  deriving DecidableEq, Repr

/-- A path that has been taken apart; `.` and `..` are among its names. -/
structure FilePath where
  absolute : Bool
  names : List Text
  deriving DecidableEq, Repr

namespace FilePath

/-- The name of a folder for itself. -/
def self : Text := "."

/-- The name of a folder for the one above it. -/
def above : Text := ".."

/-- Takes a path apart. Slashes that follow one another count as one. -/
def ofText (t : Text) : FilePath :=
  ⟨t.head? == some '/', (pieces '/' t).filter fun n => !n.isEmpty⟩

/-- The names without those at the end that lead nowhere. -/
def dropSelf (names : List Text) : List Text := (names.reverse.dropWhile (· == self)).reverse

/-- The path of the folder above. -/
def parent (p : FilePath) : FilePath := { p with names := dropSelf (dropSelf p.names).dropLast }

/-- The path leads to where it starts. -/
def isEmpty (p : FilePath) : Bool := p.names.isEmpty

def join (folder name : Text) : Text :=
  if folder.getLast? == some '/' then folder ++ name else folder ++ '/' :: name

end FilePath

namespace FileTree

/-- The most bytes that a name may have. -/
def maxName : Nat := 255

/-- The most bytes that a path may have. -/
def maxPath : Nat := 4095

def find? (f : FileTree) (p : Place) : Option FileNode :=
  if p.isEmpty then some .folder else f.entries.lookup p

/-- The entries that every system has: devices, a few files, and the folder of the running
programs, which is closed. -/
def systemEntries : List (Place × FileNode) :=
  [(["dev"], .folder), (["etc"], .folder), (["bin"], .folder), (["tmp"], .folder),
   (["proc"], .closed), (["proc", "self"], .closed), (["proc", "version"], .file []),
   (["dev", "null"], .file []), (["dev", "zero"], .file []), (["dev", "full"], .file []),
   (["dev", "random"], .file []), (["dev", "urandom"], .file []), (["dev", "tty"], .file []),
   (["etc", "passwd"], .file []), (["bin", "sh"], .file [])]

/-- A system in which relative paths start at an empty folder. -/
def fresh (here : Place) : FileTree := ⟨(here, .folder) :: systemEntries, here⟩

/-- Puts something at a place, instead of what was there. -/
def put (f : FileTree) (p : Place) (n : FileNode) : FileTree :=
  { f with entries := (p, n) :: f.entries.filter fun e => e.1 != p }

/-- Walks from a folder to a folder. -/
def walk (f : FileTree) (p : Place) : List Text → Except OsError Place
  | [] => .ok p
  | n :: r =>
    if n == FilePath.self then f.walk p r
    else if n == FilePath.above then f.walk p.dropLast r
    else if maxName < n.byteLength then .error .nameTooLong
    else match f.find? (p ++ [n]) with
      | none => .error .notFound
      | some (.file _) => .error .notDirectory
      | some .folder | some .closed => f.walk (p ++ [n]) r

/-- Where a path starts. -/
def origin (f : FileTree) (p : FilePath) : Place := if p.absolute then [] else f.here

def isFolder (f : FileTree) (p : FilePath) : Bool := (f.walk (f.origin p) p.names).isOk

/-- Puts something new into a folder, unless the folder is closed. -/
def putNew (f : FileTree) (folder : Place) (n : Text) (node : FileNode) :
    Except OsError FileTree :=
  if f.find? folder == some .closed then .error .notFound else .ok (f.put (folder ++ [n]) node)

def makeFolder (f : FileTree) (p : FilePath) : Except OsError FileTree :=
  match p.names.getLast? with
  | none => .error .alreadyExists
  | some n => do
    let folder ← f.walk (f.origin p) p.names.dropLast
    if n == FilePath.self || n == FilePath.above then .error .alreadyExists
    else if maxName < n.byteLength then .error .nameTooLong
    else if (f.find? (folder ++ [n])).isSome then .error .alreadyExists
    else f.putNew folder n .folder

/-- Creates a folder; one that is there is fine. -/
def ensureFolder (f : FileTree) (p : FilePath) : Except OsError FileTree :=
  match f.makeFolder p with
  | .ok g => .ok g
  | .error e => if e != .notFound && f.isFolder p then .ok f else .error e

/-- Creates a folder and, at most `n` times, the folder above it. An error comes with the files as
they were left. -/
def makeAbove (f : FileTree) (p : FilePath) : Nat → Except (OsError × FileTree) FileTree
  | 0 => .ok f
  | n + 1 =>
    if p.isEmpty then .ok f
    else match f.ensureFolder p with
      | .ok g => .ok g
      | .error e =>
        if e == .notFound then do
          let g ← f.makeAbove p.parent n
          (g.ensureFolder p).mapError fun e => (e, g)
        else .error (e, f)

/-- Creates the folder that a path names, and the folders above it. -/
def makeFolders (f : FileTree) (path : Text) : Except (OsError × FileTree) FileTree :=
  if maxPath < path.byteLength then .error (.nameTooLong, f)
  else
    let p := FilePath.ofText path
    f.makeAbove p (p.names.length + 1)

/-- Creates an empty file in a folder that is there, and tells its place. -/
def createFile (f : FileTree) (path : Text) : Except OsError (Place × FileTree) :=
  let p := FilePath.ofText path
  if maxPath < path.byteLength then .error .nameTooLong
  else match p.names.getLast? with
    | none => .error .isDirectory
    | some n => do
      let folder ← f.walk (f.origin p) p.names.dropLast
      if n == FilePath.self || n == FilePath.above then .error .isDirectory
      else if maxName < n.byteLength then .error .nameTooLong
      else match f.find? (folder ++ [n]) with
        | some .folder | some .closed => .error .isDirectory
        | some (.file _) => .ok (folder ++ [n], f.put (folder ++ [n]) (.file []))
        | none => (f.putNew folder n (.file [])).map fun g => (folder ++ [n], g)

end FileTree

end CommandVetting
