import GrammarScopes.Service

/-!
A service that is asked many questions at a time.  Questions are tasks, which are polled and dropped
by hand, while texts and the scanner may be held back.
-/

namespace GrammarScopes

inductive ServiceTask
  | question (q : Question) (task : Registry.GrammarTask)
  | scanner (task : Task Unit ScannerLoad)

structure ServiceSession where
  service : Service
  tasks : List (String × ServiceTask) := []

inductive ServiceEvent
  /-- Asks a question; a task without a name is dropped if it has to wait. -/
  | ask (id : Option String) (q : Question)
  | askScanner (id : Option String)
  | poll (id : String)
  | drop (id : String)
  | isReady
  | cached (scope : String)
  | write (path : String) (content : FileContent)
  | remove (path : String)
  | hold (location : String)
  | release (location : String)
  | holdScanner (isHeld : Bool)
  | failScanner (times : Nat)

inductive ServiceReply
  | pending
  | answered (reply : Reply)
  | scannerReady
  | scannerFailed (e : ScopeError)
  | dropped
  | noSuchTask
  | isReady (answer : Bool)
  | cached (grammar : Option (String × Nat))
  | changed

namespace World

def write (w : World) (path : String) (content : FileContent) : World :=
  match w.source, content with
  | .memory texts, .text text => { w with source := .memory (Dictionary.insert path text texts) }
  | .directory root files, content => { w with source := .directory root (files.write path content) }
  | _, _ => w

def remove (w : World) (path : String) : World :=
  match w.source with
  | .memory texts => { w with source := .memory (texts.filter (·.1 != path)) }
  | .directory root files => { w with source := .directory root (files.remove path) }
  | .bundled => w

def hold (w : World) (location : String) : World := { w with held := location :: w.held }

def release (w : World) (location : String) : World :=
  { w with held := w.held.filter (· != location) }

def holdScanner (w : World) (isHeld : Bool) : World :=
  match w.backend with
  | .immediate => w
  | .controlled _ failures => { w with backend := .controlled isHeld failures }

def failScanner (w : World) (times : Nat) : World :=
  match w.backend with
  | .immediate => w
  | .controlled isHeld _ => { w with backend := .controlled isHeld times }

end World

namespace ServiceTask

def poll (t : ServiceTask) (s : Service) : Service × Option ServiceTask × ServiceReply :=
  match t with
  | question q task =>
    match s.registry.poll task with
    | (registry, .pending task) => ({ s with registry := registry }, some (question q task), .pending)
    | (registry, .done result) =>
      ({ s with registry := registry }, none, .answered (s.reply q result))
  | scanner task =>
    match task.poll Registry.scannerLoader s.registry with
    | (registry, .pending task) => ({ s with registry := registry }, some (scanner task), .pending)
    | (registry, .done (.ok _)) => ({ s with registry := registry }, none, .scannerReady)
    | (registry, .done (.error e)) => ({ s with registry := registry }, none, .scannerFailed e)

def drop (t : ServiceTask) (s : Service) : Service :=
  match t with
  | question _ task => { s with registry := s.registry.drop task }
  | scanner task => { s with registry := task.drop Registry.scannerLoader s.registry }

end ServiceTask

namespace ServiceSession

def task? (s : ServiceSession) (id : String) : Option ServiceTask := s.tasks.lookup id

def removeTask (s : ServiceSession) (id : String) : ServiceSession :=
  { s with tasks := s.tasks.filter (·.1 != id) }

def drop (s : ServiceSession) (id : String) : ServiceSession :=
  match s.task? id with
  | some t => { s.removeTask id with service := t.drop s.service }
  | none => s

def keep (s : ServiceSession) (id : String) (t : ServiceTask) : ServiceSession :=
  let s := s.drop id
  { s with tasks := (id, t) :: s.tasks }

def start (s : ServiceSession) (id : Option String) (t : ServiceTask) :
    ServiceSession × ServiceReply :=
  match t.poll s.service, id with
  | (service, some t, reply), some id => ({ s with service := service }.keep id t, reply)
  | (service, some t, reply), none => ({ s with service := t.drop service }, reply)
  | (service, none, reply), _ => ({ s with service := service }, reply)

def poll (s : ServiceSession) (id : String) (t : ServiceTask) : ServiceSession × ServiceReply :=
  let (service, rest, reply) := t.poll s.service
  let tasks := (s.removeTask id).tasks
  ({ s with service := service, tasks := (rest.toList.map fun t => (id, t)) ++ tasks }, reply)

def changeWorld (s : ServiceSession) (change : World → World) : ServiceSession × ServiceReply :=
  let r := s.service.registry
  ({ s with service := { s.service with registry := { r with world := change r.world } } }, .changed)

def step (s : ServiceSession) : ServiceEvent → ServiceSession × ServiceReply
  | .ask id q => s.start id (.question q (Registry.ask (q.scope s.service.rootScope)))
  | .askScanner id => s.start id (.scanner (.asked () {}))
  | .poll id =>
    match s.task? id with
    | some t => s.poll id t
    | none => (s, .noSuchTask)
  | .drop id =>
    match s.task? id with
    | some _ => (s.drop id, .dropped)
    | none => (s, .noSuchTask)
  | .isReady => (s, .isReady s.service.registry.isReady)
  | .cached scope =>
    (s, .cached ((s.service.registry.cached? scope).map fun g => (g.scopeName, g.ruleCount)))
  | .write path content => s.changeWorld (·.write path content)
  | .remove path => s.changeWorld (·.remove path)
  | .hold location => s.changeWorld (·.hold location)
  | .release location => s.changeWorld (·.release location)
  | .holdScanner isHeld => s.changeWorld (·.holdScanner isHeld)
  | .failScanner times => s.changeWorld (·.failScanner times)

end ServiceSession

end GrammarScopes
