import Mathlib.Data.List.Infix
import Mathlib.Logic.Function.Basic

namespace Opale.Linux.GitMirror

/-- The values that a configuration file has for each key, in their order. -/
abbrev GitConfig := String → List String

namespace GitConfig

abbrev urlKey : String := "remote.upstream.url"

abbrev fetchKey : String := "remote.upstream.fetch"

/-- The configuration with these values of the key. -/
abbrev put (config : GitConfig) (key : String) (values : List String) : GitConfig := Function.update config key values

/-- A configuration where only keys of `core` are set. -/
def Fresh (config : GitConfig) : Prop := ∀ key, ¬"core.".toList <+: key.toList → config key = []

/-- No key of the remote `upstream` is set. -/
def WithoutRemote (config : GitConfig) : Prop := ∀ key, "remote.upstream.".toList <+: key.toList → config key = []

end GitConfig

open GitConfig (urlKey fetchKey)

inductive GitCommand where
  | init
  | remoteAdd (url : String)
  | remoteSetUrl (url : String)
  | configUnsetAll (key : String)
  | configAdd (key value : String)
  | config (key value : String)
  | fetch
  | forEachRef
  | log (sha : String)
  | updateRef (ref sha : String)

/-- The command writes the configuration. -/
def GitCommand.Configures : GitCommand → Prop
  | .fetch | .forEachRef | .log _ | .updateRef .. => False
  | _ => True

inductive Failure where
  | timeout
  | failed
  | spawn
  | mirrorNotReady
  deriving DecidableEq

/-- What is read of a command's output. -/
abbrev GitCommand.Out : GitCommand → Type
  | .forEachRef => List (String × String)
  | .log _ => String
  | _ => Unit

def headsSpec : String := "+refs/heads/*:refs/remotes/upstream/*"
def tagsSpec : String := "+refs/tags/*:refs/tags/*"

/-- The heads of an upstream repository; `none` where it cannot be reached. -/
abbrev Network := String → Option (List (String × String))

/-- git: what may lie in the directory of a repository, what a command may answer and make of it, and what
it may leave there when it is killed. -/
structure Git where
  Repo : Type
  /-- The file `config`. -/
  config : Repo → Option GitConfig
  /-- The files of which a lock lies there: `config` for `config.lock`, and `HEAD` for `HEAD.lock` in the place
  of a `HEAD`. -/
  locks : Repo → List String
  /-- git takes the directory for a repository. -/
  repository : Repo → Prop
  /-- The object is in the repository. -/
  has : Repo → String → Prop
  runs : Network → (c : GitCommand) → Repo → Except Failure c.Out → Repo → Prop
  cut : GitCommand → Repo → Repo → Prop

namespace Git

section

variable (git : Git)

/-- A repository with this configuration, where nothing is locked. -/
structure At (r : git.Repo) (config : GitConfig) : Prop where
  repository : git.repository r
  config : git.config r = some config
  unlocked : git.locks r = []

/-- Where nothing stops it, the command succeeds and leaves the configuration `last`. Killed, it leaves the one
from before, one of `between` or `last`, and maybe its lock. -/
structure Writes (c : GitCommand) (r : git.Repo) (config : GitConfig) (between : List GitConfig) (last : GitConfig) :
    Prop where
  done : ∀ net answer r₁, git.runs net c r answer r₁ → (∃ out, answer = .ok out) ∧ git.At r₁ last
  killed : ∀ r₁, git.cut c r r₁ → git.repository r₁ ∧
    (∃ content ∈ config :: (between ++ [last]), git.config r₁ = some content) ∧ ∀ f ∈ git.locks r₁, f = "config"

/-- What the mirror relies on. git replaces a file by writing its lock and renaming it, so that a lock which is
there already makes it fail. -/
structure Documented : Prop where
  ends : ∀ net c r, ∃ answer r₁, git.runs net c r answer r₁
  /-- Nothing else than `core` is set in a new repository. -/
  init : ∀ net r answer r₁, git.config r = none → git.locks r = [] → git.runs net .init r answer r₁ →
    answer = .ok () ∧ ∃ fresh, fresh.Fresh ∧ git.At r₁ fresh
  init_locked : ∀ net r answer r₁, git.config r = none → "config" ∈ git.locks r ∨ "HEAD" ∈ git.locks r →
    git.runs net .init r answer r₁ → answer ≠ .ok ()
  init_leaves : ∀ r r₁, git.config r = none → (git.cut .init r r₁ ∨ ∃ net answer, git.runs net .init r answer r₁) →
    (git.config r₁ = none ∨ ∃ fresh, fresh.Fresh ∧ git.config r₁ = some fresh) ∧
      ∀ f ∈ git.locks r₁, f ∈ git.locks r ∨ f = "config" ∨ f = "HEAD"
  /-- `git remote add` sets the url and then a refspec for the heads. -/
  remote_add : ∀ r config url, git.At r config → config.WithoutRemote →
    git.Writes (.remoteAdd url) r config [config.put urlKey [url]] ((config.put urlKey [url]).put fetchKey [headsSpec])
  unset_all : ∀ r config key, git.At r config → config key ≠ [] →
    git.Writes (.configUnsetAll key) r config [] (config.put key [])
  add : ∀ r config key value, git.At r config →
    git.Writes (.configAdd key value) r config [] (config.put key (config key ++ [value]))
  /-- `git config key value` refuses to write in the place of several values. -/
  set : ∀ r config key value, git.At r config → (config key).length ≤ 1 →
    git.Writes (.config key value) r config [] (config.put key [value])
  set_url : ∀ r config old url, git.At r config → config urlKey = [old] →
    git.Writes (.remoteSetUrl url) r config [] (config.put urlKey [url])
  set_url_locked : ∀ net r url answer r₁, "config" ∈ git.locks r → git.runs net (.remoteSetUrl url) r answer r₁ →
    answer ≠ .ok ()
  set_url_only : ∀ net r config url answer r₁, git.config r = some config →
    git.runs net (.remoteSetUrl url) r answer r₁ →
      ∃ config₁, git.config r₁ = some config₁ ∧ ∀ key, key ≠ urlKey → config₁ key = config key
  keeps : ∀ net c r answer r₁, ¬c.Configures → git.runs net c r answer r₁ → git.config r₁ = git.config r
  fetch : ∀ net r config answer r₁, git.At r config → git.runs net .fetch r answer r₁ →
    git.At r₁ config ∧ ∀ url, config urlKey = [url] → (net url).isSome → answer = .ok ()
  for_each_ref : ∀ net r config answer r₁, git.At r config → git.runs net .forEachRef r answer r₁ →
    git.At r₁ config ∧ ∃ lines, answer = .ok lines ∧ ∀ line ∈ lines, git.has r₁ line.2
  log : ∀ net r config sha answer r₁, git.At r config → git.has r sha → git.runs net (.log sha) r answer r₁ →
    git.At r₁ config ∧ git.has r₁ sha ∧ ∃ verdict, answer = .ok verdict
  update_ref : ∀ net r config ref sha answer r₁, git.At r config → git.has r sha →
    git.runs net (.updateRef ref sha) r answer r₁ → git.At r₁ config ∧ answer = .ok ()

end

end Git

/-! A directory where git does no more than that. -/

structure Directory where
  config : Option GitConfig
  locks : List String
  refs : List (String × String)

namespace Directory

/-- A command that writes the configuration, where it does not refuse. -/
def write (d : Directory) (change : GitConfig → Option GitConfig) : Except Failure Unit × Directory :=
  match d.locks, d.config.bind change with
  | [], some config => (.ok (), { d with config := some config })
  | _, _ => (.error .failed, d)

def bare : GitConfig := GitConfig.put (fun _ => []) "core.bare" ["true"]

def initialise (d : Directory) : Except Failure Unit × Directory :=
  if d.locks = [] then (.ok (), { d with config := d.config.or (some bare) }) else (.error .failed, d)

def fetch (net : Network) (d : Directory) : Except Failure Unit × Directory :=
  match d.config.bind fun config => (config urlKey).head?.bind net with
  | some heads =>
    let others := d.refs.filter fun ref => !"refs/remotes/upstream/".toList.isPrefixOf ref.1.toList
    (.ok (), { d with refs := others ++ heads.map fun head => ("refs/remotes/upstream/" ++ head.1, head.2) })
  | none => (.error .failed, d)

def updateRef (ref sha : String) (d : Directory) : Except Failure Unit × Directory :=
  if d.config.isSome ∧ sha ∈ d.refs.map (·.2) then (.ok (), { d with refs := (ref, sha) :: d.refs.filter (·.1 ≠ ref) })
  else (.error .failed, d)

def step (net : Network) : (c : GitCommand) → Directory → Except Failure c.Out × Directory
  | .init, d => d.initialise
  | .remoteAdd url, d => d.write fun config =>
    if config urlKey = [] ∧ config fetchKey = [] then some ((config.put urlKey [url]).put fetchKey [headsSpec]) else none
  | .remoteSetUrl url, d => d.write fun config =>
    if (config urlKey).length = 1 then some (config.put urlKey [url]) else none
  | .configUnsetAll key, d => d.write fun config => if config key = [] then none else some (config.put key [])
  | .configAdd key value, d => d.write fun config => some (config.put key (config key ++ [value]))
  | .config key value, d => d.write fun config =>
    if (config key).length ≤ 1 then some (config.put key [value]) else none
  | .fetch, d => d.fetch net
  | .forEachRef, d => (if d.config.isSome then .ok d.refs else .error .failed, d)
  | .log sha, d => (if d.config.isSome ∧ sha ∈ d.refs.map (·.2) then .ok "N" else .error .failed, d)
  | .updateRef ref sha, d => d.updateRef ref sha

/-- Killed, a command leaves nothing or its lock. -/
def cut (c : GitCommand) (d d₁ : Directory) : Prop :=
  d₁ = d ∨ match c with
    | .init => d.locks = [] ∧ d₁ = { d with locks := ["HEAD"] }
    | .remoteAdd _ | .remoteSetUrl _ | .configUnsetAll _ | .configAdd .. | .config .. =>
      d.locks = [] ∧ d₁ = { d with locks := ["config"] }
    | .fetch | .forEachRef | .log _ | .updateRef .. => False

end Directory

def plainGit : Git where
  Repo := Directory
  config := Directory.config
  locks := Directory.locks
  repository d := d.config.isSome ∧ "HEAD" ∉ d.locks
  has d sha := sha ∈ d.refs.map (·.2)
  runs net c d answer d₁ := d.step net c = (answer, d₁)
  cut := Directory.cut

theorem Directory.write_at {d : Directory} {config last : GitConfig} {change : GitConfig → Option GitConfig}
    {answer : Except Failure Unit} {d₁ : Directory} (here : plainGit.At d config) (changed : change config = some last)
    (run : d.write change = (answer, d₁)) : (∃ out, answer = .ok out) ∧ plainGit.At d₁ last := by
  obtain ⟨⟨-, free⟩, found, unlocked⟩ := here
  have unlocked : d.locks = [] := unlocked
  have found : d.config = some config := found
  simp only [Directory.write, unlocked, found, Option.bind_some, changed] at run
  cases run
  exact ⟨⟨(), rfl⟩, ⟨rfl, List.not_mem_nil⟩, rfl, rfl⟩

theorem Directory.killed_at {d d₁ : Directory} {config last : GitConfig} {between : List GitConfig}
    (here : plainGit.At d config) (half : d₁ = d ∨ d.locks = [] ∧ d₁ = { d with locks := ["config"] }) :
    plainGit.repository d₁ ∧ (∃ content ∈ config :: (between ++ [last]), plainGit.config d₁ = some content) ∧
      ∀ f ∈ plainGit.locks d₁, f = "config" := by
  obtain ⟨repository, found, unlocked⟩ := here
  obtain rfl | ⟨-, rfl⟩ := half
  · refine ⟨repository, ⟨config, List.mem_cons_self, found⟩, fun f member => ?_⟩
    rw [unlocked] at member
    cases member
  · refine ⟨⟨repository.1, ?_⟩, ⟨config, List.mem_cons_self, found⟩, fun f member => List.mem_singleton.mp member⟩
    show "HEAD" ∉ ["config"]
    decide

theorem Directory.write_config (d : Directory) (change : GitConfig → Option GitConfig) : (d.write change).2 = d ∨
    ∃ config last, d.config = some config ∧ change config = some last ∧ (d.write change).2 = { d with config := some last } := by
  unfold Directory.write
  split
  next last _ written =>
    obtain ⟨config, found, changed⟩ := Option.bind_eq_some_iff.mp written
    exact .inr ⟨config, last, found, changed, rfl⟩
  next => exact .inl rfl

theorem Directory.fresh_bare : Directory.bare.Fresh := by
  intro key other
  have apart : key ≠ "core.bare" := by
    rintro rfl
    exact other (by decide)
  exact Function.update_of_ne apart ["true"] fun _ => []

theorem Directory.init_at {d d₁ : Directory} {answer : Except Failure Unit} (absent : d.config = none)
    (run : d.initialise = (answer, d₁)) :
    (d.locks = [] ∧ answer = .ok () ∧ plainGit.At d₁ Directory.bare) ∨ (d.locks ≠ [] ∧ answer ≠ .ok () ∧ d₁ = d) := by
  unfold Directory.initialise at run
  split at run
  next free =>
    rw [absent, Option.none_or] at run
    cases run
    exact .inl ⟨free, rfl, ⟨rfl, by simp [free]⟩, rfl, free⟩
  next held =>
    cases run
    exact .inr ⟨held, by simp, rfl⟩

theorem Directory.fetch_at {net : Network} {d d₁ : Directory} {config : GitConfig} {answer : Except Failure Unit}
    (here : plainGit.At d config) (run : d.fetch net = (answer, d₁)) :
    plainGit.At d₁ config ∧ ∀ url, config urlKey = [url] → (net url).isSome → answer = .ok () := by
  have found : d.config = some config := here.config
  unfold Directory.fetch at run
  rw [found, Option.bind_some] at run
  split at run
  next heads _ =>
    cases run
    exact ⟨⟨⟨rfl, here.repository.2⟩, rfl, here.unlocked⟩, fun _ _ _ => rfl⟩
  next unreachable =>
    cases run
    refine ⟨here, fun url one reached => ?_⟩
    rw [one, List.head?_cons, Option.bind_some] at unreachable
    rw [unreachable] at reached
    cases reached

theorem Directory.updateRef_at {ref sha : String} {d d₁ : Directory} {config : GitConfig} {answer : Except Failure Unit}
    (here : plainGit.At d config) (known : plainGit.has d sha) (run : d.updateRef ref sha = (answer, d₁)) :
    plainGit.At d₁ config ∧ answer = .ok () := by
  rw [Directory.updateRef, if_pos ⟨here.repository.1, known⟩] at run
  cases run
  exact ⟨⟨here.repository, here.config, here.unlocked⟩, rfl⟩

theorem Directory.config_of_reads {net : Network} {c : GitCommand} (reads : ¬c.Configures) (d : Directory) :
    (d.step net c).2.config = d.config := by
  cases c with
  | fetch =>
    show (d.fetch net).2.config = d.config
    unfold Directory.fetch
    split <;> rfl
  | updateRef ref sha =>
    show (d.updateRef ref sha).2.config = d.config
    unfold Directory.updateRef
    split <;> rfl
  | forEachRef | log => rfl
  | init | remoteAdd | remoteSetUrl | configUnsetAll | configAdd | config => exact absurd trivial reads

theorem documented_plainGit : plainGit.Documented where
  ends net c r := ⟨_, _, rfl⟩
  init := by
    intro net r answer r₁ absent unlocked run
    obtain ⟨-, answer, here⟩ | ⟨held, -⟩ := Directory.init_at absent run
    · exact ⟨answer, Directory.bare, Directory.fresh_bare, here⟩
    · exact absurd unlocked held
  init_locked := by
    intro net r answer r₁ absent locked run
    obtain ⟨free, -⟩ | ⟨-, failed, -⟩ := Directory.init_at absent run
    · rw [show plainGit.locks r = [] from free] at locked
      simp at locked
    · exact failed
  init_leaves := by
    intro r r₁ absent left
    obtain (rfl | ⟨-, rfl⟩) | ⟨net, answer, run⟩ := left
    · exact ⟨.inl absent, fun f member => .inl member⟩
    · exact ⟨.inl absent, fun f member => .inr (.inr (List.mem_singleton.mp member))⟩
    · obtain ⟨-, -, here⟩ | ⟨-, -, rfl⟩ := Directory.init_at absent run
      · refine ⟨.inr ⟨_, Directory.fresh_bare, here.config⟩, fun f member => ?_⟩
        rw [here.unlocked] at member
        cases member
      · exact ⟨.inl absent, fun f member => .inl member⟩
  remote_add r config url here without := by
    constructor
    · intro net answer r₁ run
      exact Directory.write_at here (if_pos ⟨without _ (by decide), without _ (by decide)⟩) run
    · intro r₁ half
      exact Directory.killed_at here half
  unset_all r config key here set_ := by
    constructor
    · intro net answer r₁ run
      exact Directory.write_at here (if_neg set_) run
    · intro r₁ half
      exact Directory.killed_at here half
  add r config key value here := by
    constructor
    · intro net answer r₁ run
      exact Directory.write_at here rfl run
    · intro r₁ half
      exact Directory.killed_at here half
  set r config key value here few := by
    constructor
    · intro net answer r₁ run
      exact Directory.write_at here (if_pos few) run
    · intro r₁ half
      exact Directory.killed_at here half
  set_url r config old url here one := by
    constructor
    · intro net answer r₁ run
      exact Directory.write_at here (if_pos (by rw [one]; rfl)) run
    · intro r₁ half
      exact Directory.killed_at here half
  set_url_locked := by
    intro net r url answer r₁ locked run
    have run : Directory.write r _ = (answer, r₁) := run
    rintro rfl
    unfold Directory.write at run
    split at run
    next free _ =>
      rw [show plainGit.locks r = [] from free] at locked
      cases locked
    next => cases run
  set_url_only := by
    intro net r config url answer r₁ found run
    have run : (Directory.write r _).2 = r₁ := congrArg Prod.snd run
    obtain same | ⟨config₁, last, found₁, changed, same⟩ := Directory.write_config r _
    · rw [← run, same]
      exact ⟨config, found, fun _ _ => rfl⟩
    · rw [← run, same]
      cases found.symm.trans found₁
      refine ⟨last, rfl, fun key other => ?_⟩
      obtain ⟨-, put⟩ := Option.ite_none_right_eq_some.mp changed
      cases put
      exact Function.update_of_ne other _ _
  keeps net c r answer r₁ reads run := by
    have run : (r.step net c).2 = r₁ := congrArg Prod.snd run
    rw [← run]
    exact Directory.config_of_reads reads r
  fetch _ _ _ _ _ here run := Directory.fetch_at here run
  for_each_ref := by
    intro net r config answer r₁ here run
    have run : (if r.config.isSome then Except.ok r.refs else _, r) = (answer, r₁) := run
    rw [if_pos here.repository.1] at run
    cases run
    exact ⟨here, _, rfl, fun line member => List.mem_map_of_mem member⟩
  log := by
    intro net r config sha answer r₁ here known run
    have run : (if r.config.isSome ∧ sha ∈ r.refs.map (·.2) then Except.ok "N" else _, r) = (answer, r₁) := run
    rw [if_pos ⟨here.repository.1, known⟩] at run
    cases run
    exact ⟨here, known, _, rfl⟩
  update_ref _ _ _ _ _ _ _ here known run := Directory.updateRef_at here known run

end Opale.Linux.GitMirror
