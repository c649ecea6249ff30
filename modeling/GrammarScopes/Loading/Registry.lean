import GrammarScopes.Description.Reader
import GrammarScopes.Grammar.Basic
import GrammarScopes.Loading.Collection
import GrammarScopes.Loading.Task
import GrammarScopes.Loading.World
import GrammarScopes.Text.Quoted

/-!
Loading grammars.  Three caches are nested: loading a compiled grammar asks for the scanner, and then
for the descriptions of the grammar and of all that it embeds; these come from a source.
-/

namespace GrammarScopes

structure ScannerLoad where
  isStarted : Bool := false
  deriving DecidableEq, Repr

structure DescriptionLoad where
  scope : String
  location : String
  isStarted : Bool := false
  deriving DecidableEq, Repr

inductive GrammarLoad
  | scanner (scope : String) (task : Task Unit ScannerLoad)
  /-- Collects descriptions; `current` is being loaded. -/
  | collect (scope : String) (scanner : Scanner) (c : Collection) (current : String)
      (task : Task String DescriptionLoad)

structure Registry where
  table : GrammarTable
  world : World
  scanner : LoadCache Unit Scanner := {}
  descriptions : LoadCache String GrammarDescription := {}
  grammars : LoadCache String Grammar := {}

namespace Registry

def runScanner (load : ScannerLoad) (r : Registry) : Registry × Poll ScannerLoad Scanner :=
  match r.world.backend with
  | .immediate => (r, .done (.ok .standard))
  | .controlled isHeld failures =>
    -- A load that was held back goes on with the attempt it has made.
    let attempts := if load.isStarted then r.world.attempts else r.world.attempts + 1
    let world := { r.world with attempts := attempts }
    if isHeld then ({ r with world := world }, .pending ⟨true⟩)
    else match failures with
      | 0 => ({ r with world := world }, .done (.ok .standard))
      | n + 1 =>
        ({ r with world := { world with backend := .controlled false n } },
          .done (.error (.backendUnavailable ("attempt " ++ toString attempts))))

def scannerLoader : Loader Registry Unit ScannerLoad Scanner where
  get := scanner
  set cache r := { r with scanner := cache }
  describe _ := "()"
  run := runScanner
  drop _ r := r

def readDescription (w : World) (location : String) : Except ScopeError GrammarDescription := do
  let text ← w.source.read location
  (GrammarDescription.ofText text).mapError fun e => .grammar (.invalidGrammar location e)

def runDescription (load : DescriptionLoad) (r : Registry) :
    Registry × Poll DescriptionLoad GrammarDescription :=
  let readings :=
    if load.isStarted then r.world.readings else ⟨load.scope, load.location⟩ :: r.world.readings
  let r := { r with world := { r.world with readings := readings } }
  if r.world.holds load.location then (r, .pending { load with isStarted := true })
  else (r, .done (readDescription r.world load.location))

def descriptionLoader : Loader Registry String DescriptionLoad GrammarDescription where
  get := descriptions
  set cache r := { r with descriptions := cache }
  describe := Text.quoted
  run := runDescription
  drop _ r := r

def describe (scope : String) (r : Registry) :
    Registry × Poll (Task String DescriptionLoad) GrammarDescription :=
  match r.table.location? scope with
  | none => (r, .done (.error (.unmappedScope scope)))
  | some location => (Task.asked scope ⟨scope, location, false⟩).poll descriptionLoader r

def compileCollected (scope : String) (scanner : Scanner) (c : Collection) :
    Except ScopeError Grammar :=
  (Grammar.compile scope c.found scanner).mapError .grammar

/-- What the answer for the description of `current` leads to: another round with `found`, or the next
pending scope with `skipped`. -/
def proceed (scope : String) (scanner : Scanner) (c : Collection) (current : String)
    (found skipped : Collection → Registry → Registry × Poll GrammarLoad Grammar) :
    Registry × Poll (Task String DescriptionLoad) GrammarDescription →
      Registry × Poll GrammarLoad Grammar
  | (r, .pending task) => (r, .pending (.collect scope scanner c current task))
  | (r, .done (.ok g)) => found (c.add current g) r
  | (r, .done (.error e)) =>
    -- Only the grammar itself must not be missing.
    if current = scope then (r, .done (.error e)) else skipped (c.skip current) r

/-- Looks at pending scopes until one of them has a description; `found` goes on from there. -/
def drain (scope : String) (scanner : Scanner)
    (found : Collection → Registry → Registry × Poll GrammarLoad Grammar) :
    List String → Collection → Registry → Registry × Poll GrammarLoad Grammar
  | [], c, r => (r, .done (compileCollected scope scanner c))
  | s :: rest, c, r =>
    if c.isKnown s then drain scope scanner found rest c r
    else
      proceed scope scanner { c with pending := rest } s found
        (drain scope scanner found rest) (describe s r)

def collect (scope : String) (scanner : Scanner) :
    Nat → Collection → Registry → Registry × Poll GrammarLoad Grammar
  | 0, c, r =>
    drain scope scanner (fun _ r => (r, .done (.error (.grammar .endless)))) c.pending c r
  | n + 1, c, r => drain scope scanner (collect scope scanner n) c.pending c r

/-- No more descriptions can be collected than there are scopes in the table. -/
def collectAll (scope : String) (scanner : Scanner) (c : Collection) (r : Registry) :
    Registry × Poll GrammarLoad Grammar :=
  collect scope scanner r.table.length c r

def runGrammar (load : GrammarLoad) (r : Registry) : Registry × Poll GrammarLoad Grammar :=
  match load with
  | .scanner scope task =>
    match task.poll scannerLoader r with
    | (r, .pending task) => (r, .pending (.scanner scope task))
    | (r, .done (.ok scanner)) => collectAll scope scanner { pending := [scope] } r
    | (r, .done (.error e)) => (r, .done (.error e))
  | .collect scope scanner c current task =>
    let go := collectAll scope scanner
    proceed scope scanner c current go go (task.poll descriptionLoader r)

def dropGrammar (load : GrammarLoad) (r : Registry) : Registry :=
  match load with
  | .scanner _ task => task.drop scannerLoader r
  | .collect _ _ _ _ task => task.drop descriptionLoader r

def grammarLoader : Loader Registry String GrammarLoad Grammar where
  get := grammars
  set cache r := { r with grammars := cache }
  describe := Text.quoted
  run := runGrammar
  drop := dropGrammar

abbrev GrammarTask := Task String GrammarLoad

def ask (scope : String) : GrammarTask := .asked scope (.scanner scope (.asked () {}))

def poll (task : GrammarTask) (r : Registry) : Registry × Poll GrammarTask Grammar :=
  match task with
  | .asked scope _ =>
    -- A scope outside the table is refused before anything is loaded.
    if (r.table.location? scope).isNone then (r, .done (.error (.unmappedScope scope)))
    else task.poll grammarLoader r
  | task => task.poll grammarLoader r

def drop (task : GrammarTask) (r : Registry) : Registry := task.drop grammarLoader r

def load (scope : String) (r : Registry) : Registry × Except ScopeError Grammar :=
  match r.poll (ask scope) with
  | (r, .done result) => (r, result)
  | (r, .pending task) => (r.drop task, .error (.abandoned (Text.quoted scope)))

def cached? (r : Registry) (scope : String) : Option Grammar := r.grammars.value? scope

def isReady (r : Registry) : Bool := (r.scanner.value? ()).isSome

end Registry

end GrammarScopes
