/-!
# The files a command reads

A command runs in a working directory holding some files, each named by its path from that
directory; the directories are those the paths pass through. The rest of the file system is a
plain system tree: the usual top-level directories, and the empty device `/dev/null`; what lies
above the working directory is unknown and holds nothing. `Workspace.read` looks a path up the
way the operating system does: component by component from the working directory, or from the
root for an absolute path, `.` staying in place and `..` going up (the root is its own parent). A component through which the walk must go on has to be a directory, a
trailing slash included; a missing component, a component longer than 255 bytes and a path with
a NUL character are refused, each with the system's message. A directory opens, but reading it
fails.
-/

namespace RegisterLiveness

namespace Cli

/-- Files by their path from the working directory. -/
structure Workspace where
  files : List (String × String) := []
  deriving Repr, Inhabited

/-- The components of a path that name something: neither empty nor `.`. -/
def pathComponents (path : String) : List String :=
  (path.splitOn "/").filter fun c => c ≠ "" ∧ c ≠ "."

/-- The directories of the system tree, by their components from the root. -/
def systemDirectories : List (List String) :=
  [[]] ++ ["bin", "boot", "dev", "etc", "home", "lib", "media", "mnt", "opt", "proc", "root", "run",
    "sbin", "srv", "sys", "tmp", "usr", "var"].map fun d => [d]

/-- The files of the system tree, with their content. -/
def systemFiles : List (List String × String) := [(["dev", "null"], "")]

/-- Where a walk stands: in a directory of the workspace, in one of the system tree, or above
the working directory, where nothing is known. -/
inductive Place where
  | work (dir : List String)
  | system (dir : List String)
  | unknown
  deriving Repr, Inhabited

/-- What a lookup finds. -/
inductive Found where
  | file (content : String)
  | directory
  /-- The walk failed, for the reason given. -/
  | failed (reason : String)
  deriving Repr, Inhabited

namespace Workspace

/-- The files, each with the components of its path. -/
def entries (w : Workspace) : List (List String × String) :=
  w.files.map fun (name, content) => (pathComponents name, content)

/-- The content of the file at components `dir`, if there is one. -/
def fileAt? (w : Workspace) (dir : List String) : Option String :=
  (w.entries.find? (·.1 == dir)).map (·.2)

/-- Whether the components `dir` name a directory of the workspace. -/
def isDirectory (w : Workspace) (dir : List String) : Bool :=
  w.entries.any fun (p, _) => dir.isPrefixOf p ∧ dir.length < p.length

/-- Walk the components of a path from a place; an empty component stands for a
doubled or trailing slash. -/
def walk (w : Workspace) : Place → List String → Found
  | _, [] => .directory
  | here, "" :: rest => w.walk here rest
  | here, "." :: rest => w.walk here rest
  | .unknown, ".." :: rest => w.walk .unknown rest
  | .system dir, ".." :: rest => w.walk (.system dir.dropLast) rest
  | .work dir, ".." :: rest => w.walk (if dir.isEmpty then .unknown else .work dir.dropLast) rest
  | here, c :: rest =>
    if c.utf8ByteSize > 255 then .failed "file name too long"
    else match here with
      | .unknown => .failed "no such file or directory"
      | .system dir =>
        let next := dir ++ [c]
        match systemFiles.lookup next with
        | some content => if rest.isEmpty then .file content else .failed "not a directory"
        | none =>
          if systemDirectories.contains next then w.walk (.system next) rest
          else .failed "no such file or directory"
      | .work dir =>
        let next := dir ++ [c]
        match w.fileAt? next with
        | some content => if rest.isEmpty then .file content else .failed "not a directory"
        | none =>
          if w.isDirectory next then w.walk (.work next) rest
          else .failed "no such file or directory"

/-- Look a path up. -/
def lookup (w : Workspace) (path : String) : Found :=
  if path.contains (Char.ofNat 0) then .failed "invalid argument"
  else if path.isEmpty then .failed "no such file or directory"
  else if path.startsWith "/" then w.walk (.system []) (path.splitOn "/")
  else w.walk (.work []) (path.splitOn "/")

/-- Read the file at a path: its content, or the message of the failure. -/
def read (w : Workspace) (path : String) : Except String String :=
  match w.lookup path with
  | .file content => .ok content
  | .directory => .error ("read " ++ path ++ ": is a directory")
  | .failed reason => .error ("open " ++ path ++ ": " ++ reason)

end Workspace

end Cli

end RegisterLiveness
