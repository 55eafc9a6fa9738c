import LineCensus.Language
import LineCensus.Path
import LineCensus.Text.LowerCase

/-!
# `Language.Registry` — the languages and how a file's language is found

## Contents
- `registry`, the languages in their order of declaration.
- `resolve?`, the language of an extension, whatever its letter case.
- `ofPath?`, the language of a path, by the extension of its file name.
-/

namespace LineCensus.Language

/-- The comment that C and its relatives share. -/
def slashStar : Delimiters := .ofStrings "/*" "*/"

/-- A language with line comments, with a block comment perhaps, and without region tags. -/
def plain (name : String) (extensions : List String) (line : String) (block : Option Delimiters) :
    Language :=
  ⟨name, extensions, ⟨[line.toList], block, []⟩⟩

/-- A language of files that embed others: markup, a script and a style sheet. -/
def vue : Language :=
  ⟨"Vue", [".vue"],
   ⟨["//".toList], some slashStar,
    [.ofStrings "<template>" "</template>", .ofStrings "<script>" "</script>",
     .ofStrings "<style>" "</style>"]⟩⟩

/-- The languages that are counted. -/
def registry : List Language :=
  [plain "Python" [".py"] "#" none,
   plain "JavaScript" [".js"] "//" (some slashStar),
   plain "TypeScript" [".ts", ".tsx"] "//" (some slashStar),
   plain "Java" [".java"] "//" (some slashStar),
   plain "C/C++" [".c", ".h", ".cpp", ".hpp", ".cc"] "//" (some slashStar),
   plain "Solidity" [".sol"] "//" (some slashStar),
   vue]

/-- The language of an extension, which has to begin with a dot. -/
def resolve? (extension : List Char) : Option Language :=
  if extension.head? = some '.' then
    let lower := String.ofList (Text.lowerCase extension)
    registry.find? fun l => l.extensions.contains lower
  else none

/-- The language of a path. An extension that is not UTF-8 belongs to none. -/
def ofPath? (path : Path) : Option Language := do
  let extension ← path.extension?
  let text ← Utf8.decode? extension
  resolve? ('.' :: text)

end LineCensus.Language
