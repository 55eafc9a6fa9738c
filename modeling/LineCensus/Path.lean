import LineCensus.Text.Split
import LineCensus.Text.Utf8

/-!
# `Path` — paths as bytes

A path is a string of bytes cut at slashes. Components that are empty or a single dot say nothing, so
repeated slashes, a slash at the end and `/.` do not matter to the functions here.

## Contents
- `components`, `fileName?`, `extension?`, of the last component.
- `join`, one name below a path; `relativeTo?`, what lies below a root.
- `display`, a readable text.
-/

namespace LineCensus

/-- The name of one entry of a directory. -/
abbrev Name := List UInt8

/-- A path, as it is handed to the operating system. -/
structure Path where
  bytes : List UInt8
  deriving DecidableEq, Repr

namespace Path

/-- The byte of `/`. -/
def slash : UInt8 := 0x2F

/-- The byte of `.`. -/
def dot : UInt8 := 0x2E

/-- The path that a string spells. -/
def ofString (s : String) : Path := ⟨Utf8.bytes s⟩

/-- Does the path start at the top of the file system? -/
def isAbsolute (p : Path) : Bool := p.bytes.head? == some slash

/-! ## Components -/

/-- The components that say something. -/
def components (p : Path) : List Name :=
  (splitAt (· == slash) p.bytes).filter fun c => !c.isEmpty && c != [dot]

/-- The last component, unless it leads up. -/
def fileName? (p : Path) : Option Name :=
  match p.components.getLast? with
  | some name => if name = [dot, dot] then none else some name
  | none => none

/-- The bytes after the last dot of a name, unless the name has no dot or only one as its first byte. -/
def nameExtension? (name : Name) : Option Name :=
  match name.reverse.dropWhile (· != dot) with
  | [] => none
  | [_] => none
  | _ :: _ :: _ => some (name.reverse.takeWhile (· != dot)).reverse

/-- The extension of the file name, without its dot. -/
def extension? (p : Path) : Option Name := p.fileName?.bind nameExtension?

/-! ## Below a directory -/

/-- The entry `name` of the directory `p`. -/
def join (p : Path) (name : Name) : Path :=
  match p.bytes.getLast? with
  | none => ⟨name⟩
  | some last => if last = slash then ⟨p.bytes ++ name⟩ else ⟨p.bytes ++ slash :: name⟩

/-- Names with slashes between them. -/
def joinNames : List Name → List UInt8
  | [] => []
  | [name] => name
  | name :: rest => name ++ slash :: joinNames rest

/-- The path below `root` that leads to `p`, if `p` lies there; empty for the root itself. -/
def relativeTo? (root p : Path) : Option Path :=
  if root.isAbsolute = p.isAbsolute ∧ root.components.isPrefixOf p.components then
    some ⟨joinNames (p.components.drop root.components.length)⟩
  else none

/-! ## As text -/

/-- The path as a text, if its bytes are one. -/
def text? (p : Path) : Option (List Char) := Utf8.decode? p.bytes

/-- A readable text for the path, whatever its bytes. -/
def display (p : Path) : String := String.ofList (Utf8.decodeLossy p.bytes)

end Path

end LineCensus
