import LineCensus.FileSystem

/-!
# `FileSystem.Tree` — a file system in memory

Nodes are kept by their location, the names on the way from the top. A path is resolved name by name: each
name has to be looked up in a directory, and a link is replaced by its target.

## Contents
- `Node`, `Tree`, and `Tree.find?`.
- `Tree.follow`, the resolution of a list of names, with the limits of the system.
- `Tree.insert`, a new node with the directories above it.
- `Tree.fileSystem`, the tree as a view.
-/

namespace LineCensus

/-- The names from the top of a tree to a node. -/
abbrev Location := List Name

/-- A node of a tree. -/
inductive Node where
  | file (content : List UInt8)
  | directory
  | link (target : Path)
  | other
  deriving DecidableEq, Repr

/-- The kind of a node. -/
def Node.kind : Node → NodeKind
  | .file _ => .file
  | .directory => .directory
  | .link _ => .link
  | .other => .other

/-- Nodes by location, and the directory that relative paths start from. -/
structure Tree where
  nodes : List (Location × Node)
  here : Location
  deriving DecidableEq, Repr

/-- The absolute path of a location. -/
def Location.path (loc : Location) : Path := ⟨Path.slash :: Path.joinNames loc⟩

/-- The names to look up for a path. A slash at the end asks for a directory, as a dot does. -/
def Path.steps (p : Path) : List Name :=
  let names := (splitAt (· == Path.slash) p.bytes).filter fun c => !c.isEmpty
  if p.bytes.getLast? = some Path.slash ∧ !names.isEmpty then names ++ [[Path.dot]] else names

namespace Tree

/-- The most bytes that a name can have. -/
def maxNameBytes : Nat := 255

/-- A path of this many bytes is too long. -/
def pathLimit : Nat := 4096

/-- The most links that are followed for one path. -/
def maxLinks : Nat := 40

/-- The node at a location. The top is a directory. -/
def find? (t : Tree) (loc : Location) : Option Node :=
  if loc.isEmpty then some .directory else t.nodes.lookup loc

/-! ## Resolving paths -/

/-- Is the location too long for a limit on its path? -/
def exceeds (limit : Option Nat) (loc : Location) : Bool :=
  match limit with
  | some n => n ≤ (Location.path loc).bytes.length
  | none => false

/-- Look up names one after another, from a location. `links` more links may be followed; no location on
    the way may exceed the limit. -/
def follow (t : Tree) (limit : Option Nat) (links : Nat) (loc : Location) :
    List Name → Except OsError Location
  | [] => .ok loc
  | name :: rest =>
    if t.find? loc != some .directory then .error .notDirectory
    else if name = [Path.dot] then t.follow limit links loc rest
    else if name = [Path.dot, Path.dot] then t.follow limit links loc.dropLast rest
    else if maxNameBytes < name.length || exceeds limit (loc ++ [name]) then .error .nameTooLong
    else match t.find? (loc ++ [name]) with
      | none => .error .notFound
      | some (.link target) =>
        match links with
        | 0 => .error .linkLoop
        | links + 1 =>
          t.follow limit links (if target.isAbsolute then [] else loc) (target.steps ++ rest)
      | some _ => t.follow limit links (loc ++ [name]) rest
termination_by names => (links, names.length)

/-- The location that a path leads to. -/
def resolve (t : Tree) (limit : Option Nat) (p : Path) : Except OsError Location :=
  if p.bytes.contains 0 then .error .interiorNul
  else if p.bytes.isEmpty then .error .notFound
  else if pathLimit ≤ p.bytes.length then .error .nameTooLong
  else t.follow limit maxLinks (if p.isAbsolute then [] else t.here) p.steps

/-! ## Building -/

/-- Put a node at a location, in place of one that is there. A directory keeps a node that is there. -/
def set (t : Tree) (loc : Location) (node : Node) : Tree :=
  if t.nodes.any (·.1 == loc) then
    if node = .directory then t
    else { t with nodes := t.nodes.map fun e => if e.1 == loc then (loc, node) else e }
  else { t with nodes := t.nodes ++ [(loc, node)] }

/-- Put a node below a location, with the directories on the way; nothing changes where one of them cannot
    be entered. -/
def insertBelow (t : Tree) (loc : Location) (node : Node) : List Name → Tree
  | [] => t
  | [name] => t.set (loc ++ [name]) node
  | name :: rest =>
    let grown := if name = [Path.dot, Path.dot] then t else t.set (loc ++ [name]) .directory
    match grown.follow none maxLinks loc [name, [Path.dot]] with
    | .ok below => grown.insertBelow below node rest
    | .error _ => t

/-- Put a node at a path. -/
def insert (t : Tree) (p : Path) (node : Node) : Tree :=
  t.insertBelow (if p.isAbsolute then [] else t.here) node
    (p.steps.filter (· != [Path.dot]))

/-- An empty tree, with an empty directory that relative paths start from. -/
def empty (here : Path) : Tree :=
  { (Tree.mk [] []).insert here .directory with here := here.components }

/-! ## As a view -/

/-- The entry that a node is in the directory at a location, if it stands directly in it. -/
def entryIn? (loc spot : Location) (node : Node) : Option Entry :=
  match spot.getLast? with
  | some name => if spot.dropLast = loc then some ⟨name, .ok node.kind⟩ else none
  | none => none

/-- The entries of the directory at a location. -/
def entries (t : Tree) (loc : Location) : List Entry :=
  t.nodes.filterMap fun (spot, node) => entryIn? loc spot node

/-- The node that a path leads to. -/
def node (t : Tree) (p : Path) : Except OsError (Location × Node) :=
  match t.resolve none p with
  | .error e => .error e
  | .ok loc =>
    match t.find? loc with
    | some node => .ok (loc, node)
    | none => .error .notFound

/-- The tree as a view. -/
def fileSystem (t : Tree) : FileSystem where
  kind p := (t.node p).map (·.2.kind)
  list p :=
    match t.node p with
    | .ok (loc, .directory) => .ok ((t.entries loc).map .ok)
    | .ok _ => .error .notDirectory
    | .error e => .error e
  canonical p := (t.resolve (some pathLimit) p).map Location.path
  read p :=
    match t.node p with
    | .ok (_, .file content) => .ok content
    | .ok (_, .directory) => .error .isDirectory
    | .ok _ => .ok []
    | .error e => .error e

end Tree

end LineCensus
