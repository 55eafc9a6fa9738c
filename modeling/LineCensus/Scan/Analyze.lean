import LineCensus.Classify
import LineCensus.Language.Registry
import LineCensus.Scan.Fault
import LineCensus.Text.Lines

/-!
# `Scan.Analyze` — one file, from its path to its counts

## Contents
- `linesOfBytes?`, the lines of a content; `linesOfPieces?`, with decoding and cutting the other way round.
- `FileSystem.readLines`, the lines of a file.
- `FileSystem.analyze`, its language and the counts of its lines.
-/

namespace LineCensus

/-- The lines of a content, if it is UTF-8. -/
def linesOfBytes? (content : List UInt8) : Option (List (List Char)) :=
  (Utf8.decode? content).map Text.splitLines

/-- The lines of a content that is cut first and decoded line by line. -/
def linesOfPieces? (content : List UInt8) : Option (List (List Char)) :=
  (Text.scanBytes content).mapM Utf8.decode?

namespace FileSystem

/-- The lines of a file. -/
def readLines (fs : FileSystem) (path : Path) : Except SkipReason (List (List Char)) :=
  match fs.read path with
  | .error error => .error (.unreadable path error)
  | .ok content =>
    match linesOfBytes? content with
    | none => .error (.undecodable path)
    | some lines => .ok lines

/-- The language of a file and the counts of its lines. A file of no known language is not read. -/
def analyze (fs : FileSystem) (path : Path) : Except SkipReason (Language × LineCounts) :=
  match Language.ofPath? path with
  | none => .error (.unsupported path)
  | some language =>
    match fs.readLines path with
    | .error reason => .error reason
    | .ok lines => .ok (language, language.markers.classify lines)

end FileSystem

end LineCensus
