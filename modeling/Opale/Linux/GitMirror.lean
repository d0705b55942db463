import Opale.Effects.Interruption
import Opale.Linux.Git

namespace Opale.Linux.GitMirror

structure Rings where
  pilot : String
  stable : String

/-- The heads as they were last read. -/
structure Heads where
  pilot : Option String
  stable : Option String
  upstream : List (String × String)

inductive MirrorState where
  | absent | cloning | ready | error | unavailable
  deriving DecidableEq

inductive LastError where
  | failure (f : Failure)
  | unsigned
  deriving DecidableEq

structure Memory where
  state : MirrorState
  binariesOk : Bool
  populated : Bool
  lastError : Option LastError
  upstream : Option String
  rings : Rings
  signers : List String
  cached : Heads

/-- What lies on the disk: whether there is the directory of the mirror, and what its `fleet.git` holds. -/
structure Disk (git : Git) where
  dir : Bool
  repo : git.Repo

structure World (git : Git) where
  disk : Disk git
  memory : Memory

def World.holding {git : Git} (w : World git) (r : git.Repo) : World git := ⟨⟨w.disk.dir, r⟩, w.memory⟩

/-- What runs between two awaits is one operation on the memory. -/
inductive Op where
  | memory (f : Memory → Memory)
  | configExists
  | mkdir
  | persistTips
  | git (c : GitCommand)

/-- An operation on the memory answers what it has found there. -/
abbrev Op.Res : Op → Type
  | .memory _ => Memory
  | .configExists => Bool
  | .mkdir => Unit
  | .persistTips => Unit
  | .git c => Except Failure c.Out

/-- One process by itself, and nothing stops it. A command has no directory to run in before `mkdir`. -/
def exec (git : Git) (net : Network) (o : Op) (w : World git) (answer : o.Res) (w₁ : World git) : Prop :=
  match o with
  | .memory f => answer = w.memory ∧ w₁ = { w with memory := f w.memory }
  | .configExists => answer = (git.config w.disk.repo).isSome ∧ w₁ = w
  | .mkdir => w₁ = { w with disk := { w.disk with dir := true } }
  | .persistTips => w₁ = w
  | .git c => (w.disk.dir = true ∧ ∃ r, git.runs net c w.disk.repo answer r ∧ w₁ = w.holding r) ∨
    w.disk.dir = false ∧ answer = .error .spawn ∧ w₁ = w

/-- What an operation may leave half done when the process, or the operation, is stopped. -/
def cut (git : Git) (o : Op) (w w₁ : World git) : Prop :=
  match o with
  | .git c => w.disk.dir = true ∧ ∃ r, git.cut c w.disk.repo r ∧ w₁ = w.holding r
  | .mkdir => w₁ = w ∨ w₁ = { w with disk := { w.disk with dir := true } }
  | .memory _ | .configExists | .persistTips => w₁ = w

abbrev Mirroring := ExceptT Failure (Program Op.Res)

def run (c : GitCommand) : Mirroring c.Out := ExceptT.mk (Program.perform (Op.git c))

def memory (f : Memory → Memory) : Mirroring Memory := ExceptT.lift (Program.perform (Op.memory f))

def Heads.upstreamHead (heads : Heads) (branch : String) : Option String := heads.upstream.lookup branch

def withoutPrefix (p ref : String) : Option String :=
  if p.toList.isPrefixOf ref.toList then some (.ofList (ref.toList.drop p.toList.length)) else none

/-- One line of `for-each-ref`. An object takes no string for its `__proto__`. -/
def Heads.line (heads : Heads) (line : String × String) : Heads :=
  if line.1 = "refs/remotes/upstream/HEAD" then heads
  else
    match withoutPrefix "refs/remotes/upstream/" line.1 with
    | some branch =>
      if branch = "__proto__" then heads
      else { heads with upstream := (branch, line.2) :: heads.upstream.filter (·.1 ≠ branch) }
    | none =>
      if line.1 = "refs/heads/pilot" then { heads with pilot := some line.2 }
      else if line.1 = "refs/heads/stable" then { heads with stable := some line.2 }
      else heads

def readHeads : Mirroring Unit := do
  let lines ← run .forEachRef
  let next := lines.foldl Heads.line ⟨none, none, []⟩
  let _ ← memory fun m => { m with cached := next, populated := true }
  ExceptT.lift (Program.perform Op.persistTips)

/-- Without a configured signer everything is accepted. -/
def signed (sha : String) : Mirroring Bool := do
  let m ← memory id
  if m.signers = [] then return true
  return (← run (.log sha)) = "G"

section

variable (dir : String)

/-- `Object.entries(config)` -/
def options : List (String × String) :=
  [("http.receivepack", "false"), ("http.getanyfile", "false"), ("http.uploadarchive", "false"), ("pack.threads", "1"),
    ("gpg.format", "ssh"), ("gpg.ssh.allowedSignersFile", dir ++ "/allowed_signers"),
    ("remote.upstream.followRemoteHEAD", "never")]

/-- `upstream` as an argument of a command. -/
def upstreamArgument : Mirroring String := do
  match (← memory id).upstream with
  | some url => return url
  | none => throw .spawn

def initMirror : Mirroring Unit := do
  ExceptT.lift (Program.perform Op.mkdir)
  run .init
  let upstream ← upstreamArgument
  run (.remoteAdd upstream)
  run (.configUnsetAll "remote.upstream.fetch")
  run (.configAdd "remote.upstream.fetch" headsSpec)
  run (.configAdd "remote.upstream.fetch" tagsSpec)
  (options dir).forM fun option => run (.config option.1 option.2)

def updatePilot : Mirroring Unit := do
  let m ← memory id
  match m.cached.upstreamHead m.rings.pilot with
  | none => return
  | some pilot =>
    if some pilot ≠ m.cached.pilot then
      if ← signed pilot then run (.updateRef "refs/heads/pilot" pilot)
      else let _ ← memory fun m => { m with lastError := some .unsigned }

/-- What a call makes of the configuration. -/
def prepare (initial : Bool) : Mirroring Unit := do
  if initial then initMirror dir
  else
    let upstream ← upstreamArgument
    run (.remoteSetUrl upstream)

def refresh : Mirroring Unit := do
  run .fetch
  let _ ← memory fun m => { m with lastError := none }
  readHeads
  updatePilot
  readHeads
  let _ ← memory fun m => { m with state := .ready }

def attempt (initial : Bool) : Mirroring Unit := do
  try
    prepare dir initial
    refresh
  catch err =>
    let _ ← memory fun m => { m with state := .error, lastError := some (.failure err) }
    throw err

def fetchMirror : Mirroring Unit := do
  let m ← memory id
  if m.binariesOk = false then throw .mirrorNotReady
  if m.upstream.getD "" = "" then return
  let found ← ExceptT.lift (Program.perform Op.configExists)
  if found = false then
    let _ ← memory fun m => { m with state := .cloning }
  attempt dir (!found)

end

end Opale.Linux.GitMirror
