import Opale.Codec.Base64
import Opale.Effects.Threads

namespace Opale.AgentGo

open Program

def consoleReadBufBytes : Nat := 16 * 1024
def consoleMaxCols : UInt16 := 1000
def consoleMaxRows : UInt16 := 1000

/-- A frame of the server, with what `json.Unmarshal` makes of its data: the fields of an opening are zero where it gave
nothing, the input and the size are missing where it failed. -/
structure WsFrame where
  type : String
  id : Option String
  shell : String
  cols : UInt16
  rows : UInt16
  b64 : Option String
  size : Option (UInt16 × UInt16)

/-- What a reading of the socket gives; without one, the connection has ended. -/
inductive Received where
  | malformed
  | frame (fr : WsFrame)

/-- The operations of the goroutines of a connection: on the registry under its mutex, on the pseudo-terminals, on the
socket. A terminal stands for itself as a number, in the order of their creation. -/
inductive ConsoleOp where
  | connect
  | send (type id : String)
  | lookup (id : String)
  | spawn (id shell : String) (cols rows : UInt16)
  | insert (id : String) (pty : Nat)
  | go (id : String) (pty : Nat)
  | write (id : String) (pty : Nat) (raw : List UInt8)
  | resize (id : String) (pty : Nat) (cols rows : UInt16)
  | remove (id : String)
  | close (pty : Nat)
  | ids
  | finish
  | take
  | read (pty : Nat)
  | data (id : String) (pty : Nat) (b64 : String)

abbrev ConsoleOp.Res : ConsoleOp → Type
  | .connect | .send .. | .write .. | .resize .. | .close _ | .data .. => Bool
  | .lookup _ | .spawn .. | .remove _ => Option Nat
  | .insert .. | .go .. | .finish => Unit
  | .ids => List String
  | .take => Option (String × Nat)
  | .read _ => List UInt8 × Bool

abbrev Console (α : Type) := Program ConsoleOp.Res α

def lookupSession (id : String) : Console (Option Nat) := perform (ConsoleOp.lookup id)

def spawnConsole (id shell : String) (cols rows : UInt16) : Console (Option Nat) := perform (ConsoleOp.spawn id shell cols rows)

def deleteSession (id : String) : Console (Option Nat) := perform (ConsoleOp.remove id)

def takePump : Console (Option (String × Nat)) := perform ConsoleOp.take

def readPTY (pty : Nat) : Console (List UInt8 × Bool) := perform (ConsoleOp.read pty)

def writeFrame (type id : String) : Console Bool := perform (ConsoleOp.send type id)

def writeData (id : String) (pty : Nat) (raw : List UInt8) : Console Bool :=
  perform (ConsoleOp.data id pty (Base64.encode raw))

def sendError (id : String) : Console Unit := do
  let _ ← writeFrame "console.error" id

def removeSession (id : String) : Console Unit := do
  match ← deleteSession id with
  | none => pure ()
  | some pty => do
    let _ ← perform (ConsoleOp.close pty)

def openSession (id : String) (fr : WsFrame) : Console Unit := do
  let cols := if fr.cols = 0 || fr.cols > consoleMaxCols then 80 else fr.cols
  let rows := if fr.rows = 0 || fr.rows > consoleMaxRows then 24 else fr.rows
  let shell := if fr.shell = "" then "powershell.exe" else fr.shell
  match ← lookupSession id with
  | some _ => sendError id
  | none =>
    match ← spawnConsole id shell cols rows with
    | none => sendError id
    | some pty => do
      perform (ConsoleOp.insert id pty)
      let _ ← writeFrame "console.opened" id
      perform (ConsoleOp.go id pty)

/-- The frame of a reading; an empty one has none. -/
def tell (id : String) (pty : Nat) (raw : List UInt8) : Console Bool := if raw = [] then pure true else writeData id pty raw

/-- The goroutine of a terminal, as long as it is seen. -/
def pumpPTY (id : String) (pty : Nat) : Nat → Console Unit
  | 0 => pure ()
  | reads + 1 => do
    let (raw, failed) ← readPTY pty
    if ← tell id pty raw then
      if failed then do
        let _ ← writeFrame "console.exit" id
        removeSession id
      else pumpPTY id pty reads
    else pure ()

def handleInput (id : String) (fr : WsFrame) : Console Unit := do
  match ← lookupSession id with
  | none => pure ()
  | some pty =>
    match fr.b64 with
    | none => pure ()
    | some b64 =>
      if b64 = "" then pure ()
      else
        match Base64.decode b64 with
        | none => pure ()
        | some raw => do
          let _ ← perform (ConsoleOp.write id pty raw)

def handleResize (id : String) (fr : WsFrame) : Console Unit := do
  match ← lookupSession id with
  | none => pure ()
  | some pty =>
    match fr.size with
    | none => pure ()
    | some (cols, rows) =>
      if cols = 0 || cols > consoleMaxCols || rows = 0 || rows > consoleMaxRows then pure ()
      else do
        let _ ← perform (ConsoleOp.resize id pty cols rows)

def dispatch (fr : WsFrame) : Console Unit :=
  match fr.id with
  | none => pure ()
  | some id =>
    if id = "" then pure ()
    else if fr.type = "console.open" then openSession id fr
    else if fr.type = "console.input" then handleInput id fr
    else if fr.type = "console.resize" then handleResize id fr
    else if fr.type = "console.close" then removeSession id
    else pure ()

def removeAll : List String → Console Unit
  | [] => pure ()
  | id :: rest => do
    removeSession id
    removeAll rest

def sessionIds : Console (List String) := perform ConsoleOp.ids

def closeAll : Console Unit := do
  removeAll (← sessionIds)

/-- The loop of `runWSSession` on what the socket gives. -/
def serve : List Received → Console Unit
  | [] => pure ()
  | .malformed :: rest => serve rest
  | .frame fr :: rest =>
    if fr.type = "ping" then do
      if ← writeFrame "pong" "" then serve rest else pure ()
    else if fr.type = "bye" then pure ()
    else if fr.type ∈ ["console.open", "console.input", "console.resize", "console.close"] then do
      dispatch fr
      serve rest
    else serve rest

/-- What runs before the deferred `closeAll`. -/
def connected (received : List Received) : Console Unit := do
  if ← writeFrame "hello" "" then serve received else pure ()

/-- One connection, from its registry to the end of the deferred `closeAll`. -/
def runWSSession (received : List Received) : Console Unit := do
  if ← (perform ConsoleOp.connect : Console Bool) then do
    connected received
    closeAll
    perform ConsoleOp.finish
  else pure ()

def pump (reads : Nat) : Console Unit := do
  match ← takePump with
  | none => pure ()
  | some (id, pty) => pumpPTY id pty reads

/-- The registry of one connection and its terminals. `holder` is the goroutine that has a terminal in its hands while it is
not in the registry, `pumps` are the goroutines that have been started and not run yet, `reader` the one that reads
a terminal. `output` and `told` are what has been read from it and what its frames have carried, `inputs` the frames that have
been passed on, and `abandoned` the terminals of a goroutine that died. -/
structure ConsoleWorld where
  driver : Option Nat
  ended : Bool
  spawned : List String
  sessions : String → Option Nat
  closed : Nat → Nat
  holder : Nat → Option Nat
  abandoned : Nat → Bool
  pumps : List (String × Nat)
  reader : Nat → Option Nat
  output : Nat → List UInt8
  told : Nat → List UInt8
  inputs : List (String × Nat)

open Function (update)

/-- What an operation of the goroutine `t` may answer and do. -/
inductive consoleExec (t : Nat) : (o : ConsoleOp) → ConsoleWorld → o.Res → ConsoleWorld → Prop
  | connected {w} : w.driver = none → consoleExec t .connect w true { w with driver := some t, ended := false }
  | refused {w} : consoleExec t .connect w false w
  | send {type id w answer} : consoleExec t (.send type id) w answer w
  | lookup {id w} : consoleExec t (.lookup id) w (w.sessions id) w
  | notSpawned {id shell cols rows w} : consoleExec t (.spawn id shell cols rows) w none w
  | spawned {id shell cols rows w} : consoleExec t (.spawn id shell cols rows) w (some w.spawned.length)
      { w with spawned := w.spawned ++ [id], holder := update w.holder w.spawned.length (some t) }
  | insert {id pty w} : consoleExec t (.insert id pty) w ()
      { w with sessions := update w.sessions id (some pty), holder := update w.holder pty none }
  | go {id pty w} : consoleExec t (.go id pty) w () { w with pumps := w.pumps ++ [(id, pty)] }
  | write {id pty raw w answer} : consoleExec t (.write id pty raw) w answer { w with inputs := w.inputs ++ [(id, pty)] }
  | resize {id pty cols rows w answer} : consoleExec t (.resize id pty cols rows) w answer
      { w with inputs := w.inputs ++ [(id, pty)] }
  | absent {id w} : w.sessions id = none → consoleExec t (.remove id) w none w
  | remove {id pty w} : w.sessions id = some pty → consoleExec t (.remove id) w (some pty)
      { w with sessions := update w.sessions id none, holder := update w.holder pty (some t) }
  | close {pty w answer} : consoleExec t (.close pty) w answer
      { w with closed := update w.closed pty (w.closed pty + 1), holder := update w.holder pty none }
  | ids {w ids} : (∀ id, id ∈ ids ↔ w.sessions id ≠ none) → consoleExec t .ids w ids w
  | finish {w} : consoleExec t .finish w () { w with ended := true }
  | idle {w} : consoleExec t .take w none w
  | take {w before job after} : w.pumps = before ++ job :: after → consoleExec t .take w (some job)
      { w with pumps := before ++ after, reader := update w.reader job.2 (some t) }
  | read {pty w raw failed} : raw.length ≤ consoleReadBufBytes → consoleExec t (.read pty) w (raw, failed)
      { w with output := update w.output pty (w.output pty ++ raw) }
  | lost {id pty b64 w} : consoleExec t (.data id pty b64) w false w
  | data {id pty b64 w raw} : Base64.decode b64 = some raw → consoleExec t (.data id pty b64) w true
      { w with told := update w.told pty (w.told pty ++ raw) }

/-- The goroutines of a connection: the one that serves it, and the pumps that it has started. -/
def consoleThreads : Threads ConsoleOp.Res ConsoleWorld where
  exec := consoleExec
  env := Eq
  entry program := (∃ received, program = runWSSession received) ∨ ∃ reads, program = pump reads
  drop t w := { w with
    holder := fun p => if w.holder p = some t then none else w.holder p
    abandoned := fun p => w.abandoned p || w.holder p = some t }

def consoleStart : ConsoleWorld where
  driver := none
  ended := false
  spawned := []
  sessions _ := none
  closed _ := 0
  holder _ := none
  abandoned _ := false
  pumps := []
  reader _ := none
  output _ := []
  told _ := []
  inputs := []

end Opale.AgentGo
