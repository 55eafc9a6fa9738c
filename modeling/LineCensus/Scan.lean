import LineCensus.Scan.Books

/-!
# `Scan` — a scan from its settings to its result

## Contents
- `Prepared` and `prepare`, what has to be known before the walk; every error but one arises here.
- `ScanRun`, all that a scan leaves behind.
- `scan`, a scan of a root; `scan?`, with running counters of 64 bits.
-/

namespace LineCensus

/-- What is known of a scan before its walk. -/
structure Prepared where
  selection : Selection
  kind : NodeKind
  deriving DecidableEq, Repr

/-- The pattern of the settings. -/
def Config.pattern (config : Config) : Except ScanError (Option (List Glob.Token)) :=
  match config.filespec with
  | none => .ok none
  | some spec =>
    match Glob.compile spec with
    | .ok tokens => .ok (some tokens)
    | .error fault => .error (.invalidFilespec spec fault)

/-- The kind of the root. -/
def FileSystem.rootKind (fs : FileSystem) (root : Path) : Except ScanError NodeKind :=
  match fs.kind root with
  | .ok kind => .ok kind
  | .error .notFound => .error (.pathNotFound root)
  | .error error => .error (.os error)

/-- The root that the walk starts from: the canonical one, or the one given where there is none. -/
def FileSystem.walkRoot (fs : FileSystem) (root : Path) : Path :=
  match fs.canonical root with
  | .ok path => path
  | .error _ => root

/-- Read the pattern first, then look at the root. -/
def prepare (fs : FileSystem) (config : Config) : Except ScanError Prepared :=
  match config.pattern with
  | .error error => .error error
  | .ok pattern =>
    match fs.rootKind config.root with
    | .error error => .error error
    | .ok kind => .ok ⟨⟨pattern, fs.walkRoot config.root⟩, kind⟩

/-- What a scan leaves behind: its result, and the activity, the log and the printed reports, which are
    kept when it fails. -/
structure ScanRun where
  result : Except ScanError Outcome
  activity : Activity
  log : List LogRecord
  printed : List FileReport

/-- The events of a scan that is prepared. -/
def Prepared.events (p : Prepared) (fs : FileSystem) (config : Config) : List Event :=
  Walk.eventsOfRoot fs config p.kind p.selection.root

/-- Close the books. -/
def ScanRun.ofBooks : Books × Option ScanError → ScanRun
  | (b, none) => ⟨.ok b.outcome, b.activity, b.log, b.printed⟩
  | (b, some error) => ⟨.error error, b.activity, b.log, b.printed⟩

/-- A scan, from the activity so far. -/
def scan (fs : FileSystem) (config : Config) (activity : Activity) : ScanRun :=
  match prepare fs config with
  | .error error => ⟨.error error, activity, [], []⟩
  | .ok p => .ofBooks (Books.takeAll fs config p.selection (.start activity) (p.events fs config))

/-- A scan with running counters of 64 bits. -/
def scan? (v : Overflow) (fs : FileSystem) (config : Config) (activity : Activity) : Option ScanRun :=
  match prepare fs config with
  | .error error => some ⟨.error error, activity, [], []⟩
  | .ok p => (Books.takeAll? v fs config p.selection (.start activity) (p.events fs config)).map .ofBooks

/-- What a scan prints. -/
def ScanRun.output (r : ScanRun) : String := String.join (r.printed.map FileReport.render)

end LineCensus
