import Mathlib.Logic.Relation
import Opale.Linux.GitMirror

namespace Opale.Linux.GitMirror

open GitConfig (urlKey fetchKey)

def lastOption : String := "remote.upstream.followRemoteHEAD"

/-- What a configuration has of the remote, of its refspecs and of the options. -/
structure Holds (config : GitConfig) (url specs : List String) (done missing : List (String × String)) : Prop where
  url : config urlKey = url
  specs : config fetchKey = specs
  done : ∀ o ∈ done, config o.1 = [o.2]
  missing : ∀ o ∈ missing, config o.1 = []

def Complete {git : Git} (dir url : String) (d : Disk git) : Prop :=
  ∃ config, git.config d.repo = some config ∧ Holds config [url] [headsSpec, tagsSpec] (options dir) []

section

variable (git : Git) (dir : String)

/-- One call of `fetchMirror`, whatever of the network it can reach, that nothing stops. -/
def Call (d d₁ : Disk git) : Prop :=
  ∃ net memory result w, Rules.Ends (exec git net) (fetchMirror dir).run ⟨d, memory⟩ result w ∧ d₁ = w.disk

/-- Every later call that can reach its upstream succeeds and leaves a complete configuration. -/
def Survives (d : Disk git) : Prop :=
  ∀ d₁, Relation.ReflTransGen (Call git dir) d d₁ →
    ∀ net memory url, memory.binariesOk = true → memory.upstream = some url → url ≠ "" → (net url).isSome →
      ∀ result w, Rules.Ends (exec git net) (fetchMirror dir).run ⟨d₁, memory⟩ result w →
        result = .ok () ∧ Complete dir url w.disk

/-- The configuration does not exist yet, or has its last option, and nothing was left locked. -/
def AtAnEnd (d : Disk git) : Prop :=
  git.locks d.repo = [] ∧
    (git.config d.repo = none ∨ ∃ config, git.config d.repo = some config ∧ config lastOption ≠ [])

end

theorem mem_options (dir : String) : (lastOption, "never") ∈ options dir := by
  simp [options, lastOption]

/-- No option is a core key, the url or the refspecs, and none comes twice. -/
theorem options_apart (dir : String) :
    (∀ o ∈ options dir, ¬"core.".toList <+: o.1.toList ∧ o.1 ≠ urlKey ∧ o.1 ≠ fetchKey) ∧
      ((options dir).map (·.1)).Nodup := by
  have keys : ∀ key ∈ ["http.receivepack", "http.getanyfile", "http.uploadarchive", "pack.threads", "gpg.format",
      "gpg.ssh.allowedSignersFile", "remote.upstream.followRemoteHEAD"],
      ¬"core.".toList <+: key.toList ∧ key ≠ urlKey ∧ key ≠ fetchKey := by
    decide
  constructor
  · intro o member
    exact keys o.1 (List.mem_map.mpr ⟨o, member, rfl⟩)
  · show ["http.receivepack", "http.getanyfile", "http.uploadarchive", "pack.threads", "gpg.format",
      "gpg.ssh.allowedSignersFile", "remote.upstream.followRemoteHEAD"].Nodup
    decide

section

variable {git : Git} {net : Network} {w w₁ : World git} {dir url : String}

theorem ends_run {c : GitCommand} {answer : Except Failure c.Out}
    (ends : Rules.Ends (exec git net) (run c).run w answer w₁) : exec git net (.git c) w answer w₁ := by
  obtain ⟨found, w₂, ran, later⟩ := Rules.Ends.of_op ends
  obtain _ | _ := later
  exact ran

/-- Where the directory is there, git has run. -/
theorem ran {c : GitCommand} {answer : Except Failure c.Out} (made : w.disk.dir = true)
    (run : exec git net (.git c) w answer w₁) :
    ∃ r, git.runs net c w.disk.repo answer r ∧ w₁ = w.holding r := by
  obtain ⟨-, ran⟩ | ⟨absent, -⟩ := run
  · exact ran
  · rw [made] at absent
    cases absent

theorem stops_run {c : GitCommand} (stops : Rules.Stops (exec git net) (cut git) (run c).run w w₁) :
    w₁ = w ∨ cut git (.git c) w w₁ ∨ ∃ answer, exec git net (.git c) w answer w₁ := by
  obtain same | half | ⟨answer, w₂, ran, later⟩ := Rules.Stops.of_op stops
  · exact .inl same
  · exact .inr (.inl half)
  · rw [Rules.Stops.of_ret later]
    exact .inr (.inr ⟨answer, ran⟩)

theorem ends_memory {f : Memory → Memory} {answer : Except Failure Memory}
    (ends : Rules.Ends (exec git net) (memory f).run w answer w₁) :
    answer = .ok w.memory ∧ w₁ = { w with memory := f w.memory } := by
  obtain ⟨found, w₂, ⟨rfl, rfl⟩, later⟩ := Rules.Ends.of_op ends
  obtain _ | _ := later
  exact ⟨rfl, rfl⟩

theorem ends_upstreamArgument {answer : Except Failure String}
    (ends : Rules.Ends (exec git net) upstreamArgument.run w answer w₁) :
    w₁ = w ∧ ((∃ url, w.memory.upstream = some url ∧ answer = .ok url) ∨
      w.memory.upstream = none ∧ answer = .error .spawn) := by
  obtain ⟨m, w₂, first, later⟩ | ⟨e, first, -⟩ := Rules.Ends.of_bindExcept ends
  · obtain ⟨same, rfl⟩ := ends_memory first
    cases same
    cases upstream : w.memory.upstream with
    | none =>
      rw [upstream] at later
      obtain _ | _ := later
      exact ⟨rfl, .inr ⟨rfl, rfl⟩⟩
    | some url =>
      rw [upstream] at later
      obtain _ | _ := later
      exact ⟨rfl, .inl ⟨url, rfl, rfl⟩⟩
  · cases (ends_memory first).1

/-- A repository in the directory, where nothing is locked. -/
structure At (w : World git) (config : GitConfig) : Prop where
  dir : w.disk.dir = true
  repo : git.At w.disk.repo config

/-- A repository in which the command for the configuration was killed. -/
structure Halted (w : World git) (config : GitConfig) : Prop where
  dir : w.disk.dir = true
  repository : git.repository w.disk.repo
  config : git.config w.disk.repo = some config
  locks : ∀ f ∈ git.locks w.disk.repo, f = "config"

theorem At.halted {config : GitConfig} (here : At w config) : Halted w config := by
  refine ⟨here.dir, here.repo.repository, here.repo.config, fun f member => ?_⟩
  rw [here.repo.unlocked] at member
  cases member

/-- The disks that a stopped `initMirror` leaves. -/
def Left (dir : String) (w : World git) : Prop :=
  (git.config w.disk.repo = none ∧ ∀ f ∈ git.locks w.disk.repo, f = "config" ∨ f = "HEAD") ∨
    (∃ config, git.config w.disk.repo = some config ∧ config lastOption = []) ∨
    ∃ config url, Halted w config ∧ Holds config [url] [headsSpec, tagsSpec] (options dir) []

theorem Left.of_missing {config : GitConfig} (here : git.config w.disk.repo = some config)
    (missing : config lastOption = []) : Left dir w := .inr (.inl ⟨config, here, missing⟩)

/-- While an option is missing, the last one is. -/
theorem Left.of_holds {config : GitConfig} {done missing : List (String × String)} (here : Halted w config)
    (split : options dir = done ++ missing) (holds : Holds config [url] [headsSpec, tagsSpec] done missing) :
    Left dir w := by
  cases missing with
  | nil =>
    rw [List.append_nil] at split
    exact .inr (.inr ⟨config, url, here, split ▸ holds⟩)
  | cons o rest =>
    have last : (options dir).getLast? = some (lastOption, "never") := rfl
    rw [split, List.getLast?_append, List.getLast?_cons, Option.some_or, ← List.getLast?_cons] at last
    exact .of_missing here.config (holds.missing _ (List.mem_of_getLast? last))

/-- A command that writes the configuration, in front of a program that is stopped. -/
theorem stops_writes {c : GitCommand} {rest : c.Out → Mirroring Unit} {config last : GitConfig}
    {between : List GitConfig} (here : At w config) (writes : git.Writes c w.disk.repo config between last)
    (stops : Rules.Stops (exec git net) (cut git) (run c >>= rest).run w w₁) :
    (∃ content ∈ config :: (between ++ [last]), Halted w₁ content) ∨
      ∃ out w₂, At w₂ last ∧ Rules.Stops (exec git net) (cut git) (rest out).run w₂ w₁ := by
  obtain inside | ⟨out, w₂, first, later⟩ := Rules.Stops.of_bindExcept stops
  · left
    obtain rfl | ⟨-, r, half, rfl⟩ | ⟨answer, run⟩ := stops_run inside
    · exact ⟨config, List.mem_cons_self, here.halted⟩
    · obtain ⟨repository, ⟨content, member, found⟩, locks⟩ := writes.killed r half
      exact ⟨content, member, here.dir, repository, found, locks⟩
    · obtain ⟨r, runs, rfl⟩ := ran here.dir run
      have after : At (w.holding r) last := ⟨here.dir, (writes.done net answer r runs).2⟩
      exact ⟨last, by simp, after.halted⟩
  · obtain ⟨r, runs, rfl⟩ := ran here.dir (ends_run first)
    have after : At (w.holding r) last := ⟨here.dir, (writes.done net _ r runs).2⟩
    exact .inr ⟨out, _, after, later⟩

/-- The same for a command that comes before the last option. -/
theorem left_or_later {c : GitCommand} {rest : c.Out → Mirroring Unit} {config last : GitConfig}
    {between : List GitConfig} (here : At w config) (writes : git.Writes c w.disk.repo config between last)
    (missing : config lastOption = []) (keeps : ∀ content ∈ between ++ [last], content lastOption = config lastOption)
    (stops : Rules.Stops (exec git net) (cut git) (run c >>= rest).run w w₁) :
    Left dir w₁ ∨ ∃ out w₂, At w₂ last ∧ last lastOption = [] ∧
      Rules.Stops (exec git net) (cut git) (rest out).run w₂ w₁ := by
  obtain ⟨content, member, halted⟩ | ⟨out, w₂, after, later⟩ := stops_writes here writes stops
  · left
    obtain rfl | inside := List.mem_cons.mp member
    · exact .of_missing halted.config missing
    · exact .of_missing halted.config ((keeps content inside).trans missing)
  · exact .inr ⟨out, w₂, after, (keeps last (by simp)).trans missing, later⟩

/-- One more option. -/
theorem Holds.option {config : GitConfig} {done missing : List (String × String)} {o : String × String}
    (split : options dir = done ++ o :: missing) (holds : Holds config [url] [headsSpec, tagsSpec] done (o :: missing)) :
    Holds (config.put o.1 [o.2]) [url] [headsSpec, tagsSpec] (done ++ [o]) missing := by
  have member : o ∈ options dir := by simp [split]
  obtain ⟨apart, nodup⟩ := options_apart dir
  obtain ⟨-, notUrl, notSpecs⟩ := apart o member
  rw [split, List.map_append, List.map_cons, List.nodup_append, List.nodup_cons] at nodup
  refine ⟨?_, ?_, ?_, ?_⟩
  · rw [GitConfig.put, Function.update_of_ne notUrl.symm, holds.url]
  · rw [GitConfig.put, Function.update_of_ne notSpecs.symm, holds.specs]
  · intro p inside
    obtain before | here := List.mem_append.mp inside
    · have other : p.1 ≠ o.1 := nodup.2.2 p.1 (List.mem_map_of_mem before) o.1 List.mem_cons_self
      rw [GitConfig.put, Function.update_of_ne other, holds.done p before]
    · rw [List.mem_singleton.mp here, GitConfig.put, Function.update_self]
  · intro p inside
    have other : p.1 ≠ o.1 := by
      intro same
      exact nodup.2.1.1 (same ▸ List.mem_map_of_mem inside)
    rw [GitConfig.put, Function.update_of_ne other, holds.missing p (List.mem_cons_of_mem o inside)]

/-- The configuration when the options come to be written. -/
def withSpecs (fresh : GitConfig) (url : String) : GitConfig :=
  let cleared := ((fresh.put urlKey [url]).put fetchKey [headsSpec]).put fetchKey []
  let heads := cleared.put fetchKey (cleared fetchKey ++ [headsSpec])
  heads.put fetchKey (heads fetchKey ++ [tagsSpec])

theorem holds_withSpecs {fresh : GitConfig} (new : fresh.Fresh) (dir url : String) :
    Holds (withSpecs fresh url) [url] [headsSpec, tagsSpec] [] (options dir) where
  url := by
    have apart : urlKey ≠ fetchKey := by decide
    simp only [withSpecs, GitConfig.put, Function.update_of_ne apart]
    exact Function.update_self urlKey [url] fresh
  specs := by
    simp only [withSpecs, GitConfig.put, Function.update_self]
    rfl
  done := by simp
  missing := by
    intro o member
    obtain ⟨core, notUrl, notSpecs⟩ := (options_apart dir).1 o member
    simp only [withSpecs, GitConfig.put, Function.update_of_ne notSpecs, Function.update_of_ne notUrl]
    exact new o.1 core

theorem stops_upstreamArgument (stops : Rules.Stops (exec git net) (cut git) upstreamArgument.run w w₁) : w₁ = w := by
  obtain inside | ⟨m, w₂, first, later⟩ := Rules.Stops.of_bindExcept stops
  · obtain rfl | rfl | ⟨answer, w₂, ⟨-, rfl⟩, later⟩ := Rules.Stops.of_op inside
    · rfl
    · rfl
    · exact Rules.Stops.of_ret later
  · obtain ⟨same, rfl⟩ := ends_memory first
    cases same
    cases upstream : w.memory.upstream with
    | none =>
      rw [upstream] at later
      exact Rules.Stops.of_ret later
    | some url =>
      rw [upstream] at later
      exact Rules.Stops.of_ret later

theorem missing_fresh {fresh : GitConfig} (new : fresh.Fresh) : fresh lastOption = [] := new lastOption (by decide)

theorem GitConfig.Fresh.withoutRemote {fresh : GitConfig} (new : fresh.Fresh) : fresh.WithoutRemote := by
  intro key remote
  refine new key fun core => ?_
  rcases List.prefix_or_prefix_of_prefix core remote with before | before
  · exact absurd before (by decide)
  · exact absurd before (by decide)

variable (documented : git.Documented)
include documented

theorem stops_options {config : GitConfig} (done : List (String × String)) {missing : List (String × String)}
    (split : options dir = done ++ missing) (here : At w config)
    (holds : Holds config [url] [headsSpec, tagsSpec] done missing)
    (stops : Rules.Stops (exec git net) (cut git) (missing.forM fun option => run (.config option.1 option.2)).run w w₁) :
    Left dir w₁ := by
  induction missing generalizing done w config with
  | nil =>
    rw [Rules.Stops.of_ret stops]
    exact .of_holds here.halted split holds
  | cons o missing ih =>
    have none_ := holds.missing o List.mem_cons_self
    have writes := documented.set w.disk.repo config o.1 o.2 here.repo (by simp [none_])
    have holds₁ := holds.option split
    have split₁ : options dir = (done ++ [o]) ++ missing := by rw [split, List.append_assoc]; rfl
    obtain ⟨content, member, halted⟩ | ⟨_, w₂, here₂, later⟩ := stops_writes here writes stops
    · simp only [List.nil_append, List.mem_cons, List.not_mem_nil, or_false] at member
      obtain rfl | rfl := member
      · exact .of_holds halted split holds
      · exact .of_holds halted split₁ holds₁
    · exact ih (done ++ [o]) split₁ here₂ holds₁ later

theorem stops_init (absent : git.config w.disk.repo = none)
    (begun : ∀ f ∈ git.locks w.disk.repo, f = "config" ∨ f = "HEAD")
    (stops : Rules.Stops (exec git net) (cut git) (run .init).run w w₁) : Left dir w₁ := by
  have leaves {r : git.Repo} (left : git.cut .init w.disk.repo r ∨ ∃ net answer, git.runs net .init w.disk.repo answer r) :
      Left dir (w.holding r) := by
    obtain ⟨none_ | ⟨fresh, new, found⟩, locks⟩ := documented.init_leaves w.disk.repo r absent left
    · exact .inl ⟨none_, fun f member => (locks f member).elim (begun f) id⟩
    · exact .of_missing found (missing_fresh new)
  obtain rfl | ⟨-, r, half, rfl⟩ | ⟨answer, run⟩ := stops_run stops
  · exact .inl ⟨absent, begun⟩
  · exact leaves (.inl half)
  · obtain ⟨-, r, runs, rfl⟩ | ⟨-, -, rfl⟩ := run
    · exact leaves (.inr ⟨net, answer, runs⟩)
    · exact .inl ⟨absent, begun⟩

/-- Where `git init` succeeds, there is a new repository. -/
theorem ends_init {answer : Except Failure Unit} (absent : git.config w.disk.repo = none)
    (begun : ∀ f ∈ git.locks w.disk.repo, f = "config" ∨ f = "HEAD")
    (ends : Rules.Ends (exec git net) (run .init).run w answer w₁) :
    (w.disk.dir = false ∨ git.locks w.disk.repo ≠ []) ∧ answer ≠ .ok () ∨
      answer = .ok () ∧ w₁.memory = w.memory ∧ ∃ fresh : GitConfig, fresh.Fresh ∧ At w₁ fresh := by
  obtain ⟨made, r, runs, rfl⟩ | ⟨missing, rfl, -⟩ := ends_run ends
  · by_cases unlocked : git.locks w.disk.repo = []
    · obtain ⟨answer, fresh, new, here⟩ := documented.init net _ _ r absent unlocked runs
      exact .inr ⟨answer, rfl, fresh, new, made, here⟩
    · obtain ⟨f, member⟩ := List.exists_mem_of_ne_nil _ unlocked
      have locked : "config" ∈ git.locks w.disk.repo ∨ "HEAD" ∈ git.locks w.disk.repo := by
        obtain rfl | rfl := begun f member
        · exact .inl member
        · exact .inr member
      exact .inl ⟨.inr unlocked, documented.init_locked net _ _ r absent locked runs⟩
  · exact .inl ⟨.inl missing, nofun⟩

theorem stops_initMirror (absent : git.config w.disk.repo = none)
    (begun : ∀ f ∈ git.locks w.disk.repo, f = "config" ∨ f = "HEAD")
    (stops : Rules.Stops (exec git net) (cut git) (initMirror dir).run w w₁) : Left dir w₁ := by
  obtain inside | ⟨_, w₂, first, later⟩ := Rules.Stops.of_bindExcept stops
  · left
    obtain rfl | (rfl | rfl) | ⟨_, w₂, rfl, later⟩ := Rules.Stops.of_op inside
    · exact ⟨absent, begun⟩
    · exact ⟨absent, begun⟩
    · exact ⟨absent, begun⟩
    · rw [Rules.Stops.of_ret later]
      exact ⟨absent, begun⟩
  have repo₂ : w₂.disk.repo = w.disk.repo := by
    obtain ⟨_, w₃, rfl, last⟩ := Rules.Ends.of_op first
    obtain _ | _ := last
    rfl
  rw [← repo₂] at absent begun
  obtain inside | ⟨_, w₃, first, adding⟩ := Rules.Stops.of_bindExcept later
  · exact stops_init documented absent begun inside
  obtain ⟨-, failed⟩ | ⟨-, -, fresh, new, here⟩ := ends_init documented absent begun first
  · exact absurd rfl failed
  have missing := missing_fresh new
  obtain inside | ⟨url, w₄, first, adding⟩ := Rules.Stops.of_bindExcept adding
  · rw [stops_upstreamArgument inside]
    exact .of_missing here.repo.config missing
  obtain ⟨same, -⟩ := ends_upstreamArgument first
  rw [same] at adding
  -- no key that is written before the options is the last of them
  have notUrl : lastOption ≠ urlKey := by decide
  have notSpecs : lastOption ≠ fetchKey := by decide
  have keeps (config : GitConfig) (values : List String) :
      ∀ content ∈ [] ++ [config.put fetchKey values], content lastOption = config lastOption := by
    simp [Function.update_of_ne notSpecs]
  obtain left | ⟨_, w₅, here, missing, clearing⟩ := left_or_later here
    (documented.remote_add _ _ url here.repo new.withoutRemote) (missing_fresh new)
    (by simp [Function.update_of_ne notSpecs, Function.update_of_ne notUrl]) adding
  · exact left
  obtain left | ⟨_, w₆, here, missing, heads⟩ := left_or_later here
    (documented.unset_all _ _ fetchKey here.repo (by simp)) missing (keeps _ _) clearing
  · exact left
  obtain left | ⟨_, w₇, here, missing, tags⟩ := left_or_later here
    (documented.add _ _ fetchKey headsSpec here.repo) missing (keeps _ _) heads
  · exact left
  obtain left | ⟨_, w₈, here, missing, rest⟩ := left_or_later here
    (documented.add _ _ fetchKey tagsSpec here.repo) missing (keeps _ _) tags
  · exact left
  exact stops_options documented [] rfl here (holds_withSpecs new dir url) rest

variable {result : Except Failure Unit}

omit documented in
theorem ends_writes {c : GitCommand} {rest : c.Out → Mirroring Unit} {config last : GitConfig}
    {between : List GitConfig} (here : At w config) (writes : git.Writes c w.disk.repo config between last)
    (ends : Rules.Ends (exec git net) (run c >>= rest).run w result w₁) :
    ∃ out w₂, At w₂ last ∧ w₂.memory = w.memory ∧ Rules.Ends (exec git net) (rest out).run w₂ result w₁ := by
  obtain ⟨out, w₂, first, later⟩ | ⟨e, first, -⟩ := Rules.Ends.of_bindExcept ends
  · obtain ⟨r, runs, rfl⟩ := ran here.dir (ends_run first)
    have after : At (w.holding r) last := ⟨here.dir, (writes.done net _ r runs).2⟩
    exact ⟨out, _, after, rfl, later⟩
  · obtain ⟨r, runs, -⟩ := ran here.dir (ends_run first)
    obtain ⟨⟨out, same⟩, -⟩ := writes.done net _ r runs
    cases same

/-- The configuration is complete, and its repository can be used. -/
structure Ready (dir url : String) (config : GitConfig) (w : World git) : Prop where
  here : At w config
  holds : Holds config [url] [headsSpec, tagsSpec] (options dir) []

theorem ends_options {config : GitConfig} (done : List (String × String)) {missing : List (String × String)}
    (split : options dir = done ++ missing) (here : At w config)
    (holds : Holds config [url] [headsSpec, tagsSpec] done missing)
    (ends : Rules.Ends (exec git net) (missing.forM fun option => run (.config option.1 option.2)).run w result w₁) :
    result = .ok () ∧ w₁.memory = w.memory ∧ ∃ config, Ready dir url config w₁ := by
  induction missing generalizing done w config with
  | nil =>
    obtain _ | _ := ends
    rw [List.append_nil] at split
    exact ⟨rfl, rfl, config, here, split ▸ holds⟩
  | cons o missing ih =>
    have none_ := holds.missing o List.mem_cons_self
    have split₁ : options dir = (done ++ [o]) ++ missing := by rw [split, List.append_assoc]; rfl
    obtain ⟨_, w₂, here₂, memory, later⟩ := ends_writes here
      (documented.set w.disk.repo config o.1 o.2 here.repo (by simp [none_])) ends
    rw [← memory]
    exact ih (done ++ [o]) split₁ here₂ (holds.option split) later

/-- By itself, and where no lock is in its way, `initMirror` completes the configuration. -/
theorem ends_initMirror (absent : git.config w.disk.repo = none) (unlocked : git.locks w.disk.repo = [])
    (upstream : w.memory.upstream = some url) (ends : Rules.Ends (exec git net) (initMirror dir).run w result w₁) :
    result = .ok () ∧ w₁.memory = w.memory ∧ ∃ config, Ready dir url config w₁ := by
  obtain ⟨_, w₂, first, later⟩ | ⟨e, first, -⟩ := Rules.Ends.of_bindExcept ends
  case inr =>
    obtain ⟨_, w₂, -, last⟩ := Rules.Ends.of_op first
    cases last
  obtain ⟨_, w₃, made, last⟩ := Rules.Ends.of_op first
  obtain _ | _ := last
  obtain rfl : w₂ = { w with disk := { w.disk with dir := true } } := made
  have started {answer : Except Failure Unit} {w₃ : World git}
      (ends : Rules.Ends (exec git net) (run .init).run { w with disk := { w.disk with dir := true } } answer w₃) :
      answer = .ok () ∧ w₃.memory = w.memory ∧ ∃ fresh : GitConfig, fresh.Fresh ∧ At w₃ fresh := by
    obtain ⟨r, runs, rfl⟩ := ran rfl (ends_run ends)
    obtain ⟨answer, fresh, new, here⟩ := documented.init net _ _ r absent unlocked runs
    exact ⟨answer, rfl, fresh, new, rfl, here⟩
  obtain ⟨_, w₃, first, adding⟩ | ⟨e, first, -⟩ := Rules.Ends.of_bindExcept later
  case inr => cases (started first).1
  obtain ⟨-, memory₃, fresh, new, here⟩ := started first
  have upstream₃ : w₃.memory.upstream = some url := by rw [memory₃, upstream]
  obtain ⟨url₁, w₄, first, adding⟩ | ⟨e, first, -⟩ := Rules.Ends.of_bindExcept adding
  case inr =>
    obtain ⟨-, ⟨_, -, failed⟩ | ⟨none_, -⟩⟩ := ends_upstreamArgument first
    · cases failed
    · rw [upstream₃] at none_
      cases none_
  obtain ⟨same, ⟨url₂, found, answer⟩ | ⟨-, failed⟩⟩ := ends_upstreamArgument first
  case inr => cases failed
  rw [upstream₃] at found
  cases found
  cases answer
  rw [same] at adding
  obtain ⟨_, w₅, here, memory₅, clearing⟩ := ends_writes here
    (documented.remote_add _ _ url here.repo new.withoutRemote) adding
  obtain ⟨_, w₆, here, memory₆, heads⟩ := ends_writes here
    (documented.unset_all _ _ fetchKey here.repo (by simp)) clearing
  obtain ⟨_, w₇, here, memory₇, tags⟩ := ends_writes here (documented.add _ _ fetchKey headsSpec here.repo) heads
  obtain ⟨_, w₈, here, memory₈, rest⟩ := ends_writes here (documented.add _ _ fetchKey tagsSpec here.repo) tags
  rw [← memory₃, ← memory₅, ← memory₆, ← memory₇, ← memory₈]
  exact ends_options documented [] rfl here (holds_withSpecs new dir url) rest

omit documented in
theorem mem_of_line {heads : Heads} {line e : String × String} (member : e ∈ (heads.line line).upstream) :
    e ∈ heads.upstream ∨ e.2 = line.2 := by
  unfold Heads.line at member
  split at member
  · exact .inl member
  · split at member
    next branch _ =>
      split at member
      · exact .inl member
      · obtain rfl | old := List.mem_cons.mp member
        · exact .inr rfl
        · exact .inl (List.mem_filter.mp old).1
    next =>
      split at member
      · exact .inl member
      · split at member <;> exact .inl member

omit documented in
/-- A head that was read is the value of a reference. -/
theorem mem_of_lines {lines : List (String × String)} {heads : Heads} {e : String × String}
    (member : e ∈ (lines.foldl Heads.line heads).upstream) : e ∈ heads.upstream ∨ e.2 ∈ lines.map (·.2) := by
  induction lines generalizing heads with
  | nil => exact .inl member
  | cons line lines ih =>
    obtain before | later := ih member
    · exact (mem_of_line before).imp_right fun same => by simp [same]
    · exact .inr (List.mem_cons_of_mem _ later)

/-- The heads in the memory are objects of the repository. -/
def Known (w : World git) : Prop := ∀ e ∈ w.memory.cached.upstream, git.has w.disk.repo e.2

theorem ends_readHeads {config : GitConfig} (here : At w config)
    (ends : Rules.Ends (exec git net) readHeads.run w result w₁) : result = .ok () ∧ At w₁ config ∧ Known w₁ := by
  have read {answer : Except Failure (List (String × String))} {w₂ : World git}
      (ends : Rules.Ends (exec git net) (run .forEachRef).run w answer w₂) :
      At w₂ config ∧ ∃ lines, answer = .ok lines ∧ ∀ line ∈ lines, git.has w₂.disk.repo line.2 := by
    obtain ⟨r, runs, rfl⟩ := ran here.dir (ends_run ends)
    obtain ⟨after, lines⟩ := documented.for_each_ref net _ config _ r here.repo runs
    exact ⟨⟨here.dir, after⟩, lines⟩
  obtain ⟨lines, w₂, first, writing⟩ | ⟨e, first, -⟩ := Rules.Ends.of_bindExcept ends
  case inr =>
    obtain ⟨-, lines, answer, -⟩ := read first
    cases answer
  obtain ⟨here₂, _, answer, inside⟩ := read first
  cases answer
  obtain ⟨m, w₃, first, persisting⟩ | ⟨e, first, -⟩ := Rules.Ends.of_bindExcept writing
  case inr => cases (ends_memory first).1
  obtain ⟨-, rfl⟩ := ends_memory first
  obtain ⟨_, w₄, same, last⟩ := Rules.Ends.of_op persisting
  obtain _ | _ := last
  rw [show w₁ = _ from same]
  refine ⟨rfl, ⟨here₂.dir, here₂.repo⟩, ?_⟩
  intro e member
  obtain old | known := mem_of_lines member
  · cases old
  · obtain ⟨line, there, same⟩ := List.mem_map.mp known
    rw [← same]
    exact inside line there

theorem ends_signed {config : GitConfig} {sha : String} {answer : Except Failure Bool} (here : At w config)
    (known : git.has w.disk.repo sha) (ends : Rules.Ends (exec git net) (signed sha).run w answer w₁) :
    (∃ good, answer = .ok good) ∧ At w₁ config ∧ git.has w₁.disk.repo sha := by
  obtain ⟨m, w₂, first, later⟩ | ⟨e, first, -⟩ := Rules.Ends.of_bindExcept ends
  case inr => cases (ends_memory first).1
  obtain ⟨same, rfl⟩ := ends_memory first
  cases same
  split at later
  · obtain _ | _ := later
    exact ⟨⟨true, rfl⟩, here, known⟩
  · have logged {verdict : Except Failure String} {w₂ : World git}
        (ends : Rules.Ends (exec git net) (run (.log sha)).run w verdict w₂) :
        At w₂ config ∧ git.has w₂.disk.repo sha ∧ ∃ text, verdict = .ok text := by
      obtain ⟨r, runs, rfl⟩ := ran here.dir (ends_run ends)
      obtain ⟨after, known, text⟩ := documented.log net _ config sha _ r here.repo known runs
      exact ⟨⟨here.dir, after⟩, known, text⟩
    obtain ⟨text, w₂, first, last⟩ | ⟨e, first, -⟩ := Rules.Ends.of_bindExcept later
    case inr => cases (logged first).2.2.choose_spec
    obtain ⟨after, known, -⟩ := logged first
    obtain _ | _ := last
    exact ⟨⟨_, rfl⟩, after, known⟩

theorem ends_updatePilot {config : GitConfig} (here : At w config) (known : Known w)
    (ends : Rules.Ends (exec git net) updatePilot.run w result w₁) : result = .ok () ∧ At w₁ config := by
  obtain ⟨m, w₂, first, later⟩ | ⟨e, first, -⟩ := Rules.Ends.of_bindExcept ends
  case inr => cases (ends_memory first).1
  obtain ⟨same, rfl⟩ := ends_memory first
  cases same
  cases head : w.memory.cached.upstreamHead w.memory.rings.pilot with
  | none =>
    rw [head] at later
    obtain _ | _ := later
    exact ⟨rfl, here⟩
  | some pilot =>
    simp only [head] at later
    split at later
    next =>
      have there : git.has w.disk.repo pilot := by
        obtain ⟨before, after, shape, -⟩ := List.lookup_eq_some_iff.mp head
        exact known (w.memory.rings.pilot, pilot) (by rw [shape]; simp)
      obtain ⟨good, w₂, first, deciding⟩ | ⟨e, first, -⟩ := Rules.Ends.of_bindExcept later
      case inr => cases (ends_signed documented here there first).1.choose_spec
      obtain ⟨-, here₂, there⟩ := ends_signed documented here there first
      split at deciding
      · obtain ⟨r, runs, rfl⟩ := ran here₂.dir (ends_run deciding)
        obtain ⟨after, answer⟩ := documented.update_ref net _ config _ pilot _ r here₂.repo there runs
        exact ⟨answer, here₂.dir, after⟩
      · obtain ⟨m, w₃, first, last⟩ | ⟨e, first, -⟩ := Rules.Ends.of_bindExcept deciding
        · obtain ⟨-, rfl⟩ := ends_memory first
          obtain _ | _ := last
          exact ⟨rfl, here₂.dir, here₂.repo⟩
        · cases (ends_memory first).1
    next =>
      obtain _ | _ := later
      exact ⟨rfl, here⟩

/-- A fetch leaves the configuration, and succeeds where the remote can be reached. -/
theorem ends_refresh {config : GitConfig} (url : String) (here : At w config)
    (ends : Rules.Ends (exec git net) refresh.run w result w₁) :
    At w₁ config ∧ (config urlKey = [url] → (net url).isSome → result = .ok ()) := by
  have fetched {answer : Except Failure Unit} {w₂ : World git}
      (ends : Rules.Ends (exec git net) (run .fetch).run w answer w₂) :
      At w₂ config ∧ (config urlKey = [url] → (net url).isSome → answer = .ok ()) := by
    obtain ⟨r, runs, rfl⟩ := ran here.dir (ends_run ends)
    obtain ⟨after, reached⟩ := documented.fetch net _ config _ r here.repo runs
    exact ⟨⟨here.dir, after⟩, reached url⟩
  obtain ⟨_, w₂, first, noting⟩ | ⟨e, first, rfl⟩ := Rules.Ends.of_bindExcept ends
  case inr =>
    obtain ⟨here₁, reached⟩ := fetched first
    exact ⟨here₁, fun one some_ => by cases reached one some_⟩
  obtain ⟨here₂, -⟩ := fetched first
  obtain ⟨_, w₃, first, reading⟩ | ⟨e, first, -⟩ := Rules.Ends.of_bindExcept noting
  case inr => cases (ends_memory first).1
  obtain ⟨-, rfl⟩ := ends_memory first
  have here₃ : At { w₂ with memory := { w₂.memory with lastError := none } } config := ⟨here₂.dir, here₂.repo⟩
  obtain ⟨_, w₄, first, updating⟩ | ⟨e, first, -⟩ := Rules.Ends.of_bindExcept reading
  case inr => cases (ends_readHeads documented here₃ first).1
  obtain ⟨-, here₄, known⟩ := ends_readHeads documented here₃ first
  obtain ⟨_, w₅, first, again⟩ | ⟨e, first, -⟩ := Rules.Ends.of_bindExcept updating
  case inr => cases (ends_updatePilot documented here₄ known first).1
  obtain ⟨-, here₅⟩ := ends_updatePilot documented here₄ known first
  obtain ⟨_, w₆, first, last⟩ | ⟨e, first, -⟩ := Rules.Ends.of_bindExcept again
  case inr => cases (ends_readHeads documented here₅ first).1
  obtain ⟨-, here₆, -⟩ := ends_readHeads documented here₅ first
  obtain ⟨_, w₇, first, ended⟩ | ⟨e, first, -⟩ := Rules.Ends.of_bindExcept last
  case inr => cases (ends_memory first).1
  obtain ⟨-, rfl⟩ := ends_memory first
  obtain _ | _ := ended
  exact ⟨⟨here₆.dir, here₆.repo⟩, fun _ _ => rfl⟩

omit documented in
/-- A call does nothing, or it prepares the configuration and fetches. -/
theorem ends_fetchMirror (ends : Rules.Ends (exec git net) (fetchMirror dir).run w result w₁) :
    (w₁.disk = w.disk ∧ (w.memory.binariesOk = false ∨ w.memory.upstream.getD "" = "")) ∨
      ∃ w₂ w₃ between, w₂.disk = w.disk ∧ w₂.memory.upstream = w.memory.upstream ∧ w.memory.upstream.getD "" ≠ "" ∧
        Rules.Ends (exec git net) (prepare dir (!(git.config w.disk.repo).isSome) >>= fun _ => refresh).run w₂ between w₃ ∧
        w₁.disk = w₃.disk ∧ (result = .ok () ↔ between = .ok ()) := by
  obtain ⟨m, w₂, first, checking⟩ | ⟨e, first, -⟩ := Rules.Ends.of_bindExcept ends
  case inr => cases (ends_memory first).1
  obtain ⟨same, rfl⟩ := ends_memory first
  cases same
  by_cases bad : w.memory.binariesOk = false
  · rw [if_pos bad] at checking
    obtain ⟨_, _, first, -⟩ | ⟨e, first, rfl⟩ := Rules.Ends.of_bindExcept checking
    · cases first
    · obtain _ | _ := first
      exact .inl ⟨rfl, .inl bad⟩
  rw [if_neg bad] at checking
  by_cases unset : w.memory.upstream.getD "" = ""
  · rw [if_pos unset] at checking
    obtain _ | _ := checking
    exact .inl ⟨rfl, .inr unset⟩
  rw [if_neg unset] at checking
  obtain ⟨found, w₂, first, marking⟩ | ⟨e, first, -⟩ := Rules.Ends.of_bindExcept checking
  case inr =>
    obtain ⟨_, _, -, last⟩ := Rules.Ends.of_op first
    cases last
  obtain ⟨_, w₃, ⟨rfl, rfl⟩, last⟩ := Rules.Ends.of_op first
  obtain _ | _ := last
  refine .inr ?_
  have tried {w₂ : World git} (disk : w₂.disk = w.disk) (memory : w₂.memory.upstream = w.memory.upstream)
      (ends : Rules.Ends (exec git net) (attempt dir (!(git.config w.disk.repo).isSome)).run w₂ result w₁) :
      ∃ w₂ w₃ between, w₂.disk = w.disk ∧ w₂.memory.upstream = w.memory.upstream ∧ w.memory.upstream.getD "" ≠ "" ∧
        Rules.Ends (exec git net) (prepare dir (!(git.config w.disk.repo).isSome) >>= fun _ => refresh).run w₂ between w₃ ∧
        w₁.disk = w₃.disk ∧ (result = .ok () ↔ between = .ok ()) := by
    obtain ⟨_, done, rfl⟩ | ⟨e, w₃, failed, handling⟩ := Rules.Ends.of_tryCatch ends
    · exact ⟨w₂, w₁, _, disk, memory, unset, done, rfl, by simp⟩
    · obtain ⟨_, w₄, first, last⟩ | ⟨e, first, -⟩ := Rules.Ends.of_bindExcept handling
      · obtain ⟨-, rfl⟩ := ends_memory first
        obtain _ | _ := last
        exact ⟨w₂, w₃, _, disk, memory, unset, failed, rfl, by simp⟩
      · cases (ends_memory first).1
  by_cases found : (git.config w.disk.repo).isSome = false
  · simp only [id_eq, if_pos found] at marking
    obtain ⟨_, w₄, first, last⟩ | ⟨e, first, -⟩ := Rules.Ends.of_bindExcept marking
    · obtain ⟨-, rfl⟩ := ends_memory first
      refine tried ?_ ?_ last <;> rfl
    · cases (ends_memory first).1
  · simp only [id_eq, if_neg found] at marking
    refine tried ?_ ?_ marking <;> rfl

/-- The disks from which every call can be served. -/
structure Servable (dir : String) (d : Disk git) : Prop where
  unlocked : git.locks d.repo = []
  whole : git.config d.repo = none ∨ d.dir = true ∧ git.repository d.repo ∧ ∃ url, Complete dir url d

theorem ends_remoteSetUrl {old : String} {config : GitConfig} (ready : Ready dir old config w)
    (upstream : w.memory.upstream = some url) (ends : Rules.Ends (exec git net) (prepare dir false).run w result w₁) :
    result = .ok () ∧ ∃ config, Ready dir url config w₁ := by
  have holds : Holds (config.put urlKey [url]) [url] [headsSpec, tagsSpec] (options dir) [] := by
    refine ⟨Function.update_self .., ?_, fun o member => ?_, by simp⟩
    · rw [GitConfig.put, Function.update_of_ne (by decide), ready.holds.specs]
    · rw [GitConfig.put, Function.update_of_ne ((options_apart dir).1 o member).2.1, ready.holds.done o member]
  obtain ⟨url₁, w₂, first, setting⟩ | ⟨e, first, -⟩ := Rules.Ends.of_bindExcept ends
  case inr =>
    obtain ⟨-, ⟨_, -, failed⟩ | ⟨none_, -⟩⟩ := ends_upstreamArgument first
    · cases failed
    · rw [upstream] at none_
      cases none_
  obtain ⟨same, ⟨url₂, found, answer⟩ | ⟨-, failed⟩⟩ := ends_upstreamArgument first
  case inr => cases failed
  rw [upstream] at found
  cases found
  cases answer
  rw [same] at setting
  have setting : Rules.Ends (exec git net) (run (.remoteSetUrl url)).run w result w₁ := setting
  obtain ⟨r, runs, rfl⟩ := ran ready.here.dir (ends_run setting)
  have writes := documented.set_url _ _ old url ready.here.repo ready.holds.url
  obtain ⟨⟨_, rfl⟩, after⟩ := writes.done net _ r runs
  exact ⟨rfl, _, ⟨ready.here.dir, after⟩, holds⟩

/-- A call that is served: it succeeds where its upstream can be reached, and what it leaves can be served. -/
theorem served (url : String) (servable : Servable dir w.disk)
    (ends : Rules.Ends (exec git net) (fetchMirror dir).run w result w₁) :
    Servable dir w₁.disk ∧ (w.memory.binariesOk = true → w.memory.upstream = some url → url ≠ "" → (net url).isSome →
      result = .ok () ∧ Complete dir url w₁.disk) := by
  obtain ⟨same, idle⟩ | ⟨w₂, w₃, between, disk, memory, set_, tried, same, ok⟩ := ends_fetchMirror ends
  · rw [same]
    refine ⟨servable, fun binaries upstream some_ _ => ?_⟩
    rw [binaries, upstream] at idle
    simp [some_] at idle
  obtain ⟨url₁, upstream⟩ : ∃ url, w.memory.upstream = some url := by
    cases upstream : w.memory.upstream with
    | none => simp [upstream] at set_
    | some url => exact ⟨url, rfl⟩
  have prepared {answer : Except Failure Unit} {w₄ : World git}
      (ends : Rules.Ends (exec git net) (prepare dir (!(git.config w.disk.repo).isSome)).run w₂ answer w₄) :
      answer = .ok () ∧ ∃ config, Ready dir url₁ config w₄ := by
    obtain absent | ⟨made, repository, url₂, config, here, holds⟩ := servable.whole
    · rw [absent] at ends
      obtain ⟨answer, -, ready⟩ := ends_initMirror documented (by rw [disk, absent]) (by rw [disk, servable.unlocked])
        (memory.trans upstream) ends
      exact ⟨answer, ready⟩
    · rw [here] at ends
      have ready : Ready dir url₂ config w₂ := by
        refine ⟨⟨by rw [disk, made], ?_⟩, holds⟩
        rw [disk]
        exact ⟨repository, here, servable.unlocked⟩
      exact ends_remoteSetUrl documented ready (memory.trans upstream) ends
  obtain ⟨_, w₄, first, fetching⟩ | ⟨e, first, -⟩ := Rules.Ends.of_bindExcept tried
  case inr => cases (prepared first).1
  obtain ⟨-, config, ready⟩ := prepared first
  obtain ⟨here, reached⟩ := ends_refresh documented url₁ ready.here fetching
  have complete : Complete dir url₁ w₁.disk := ⟨config, by rw [same, here.repo.config], ready.holds⟩
  refine ⟨⟨by rw [same, here.repo.unlocked], .inr ?_⟩, fun _ found _ reachable => ?_⟩
  · exact ⟨by rw [same, here.dir], by rw [same]; exact here.repo.repository, url₁, complete⟩
  · rw [upstream] at found
    cases found
    exact ⟨ok.mpr (reached ready.holds.url reachable), complete⟩

/-- What no call can repair: a lock on what is not there yet, a lock on the configuration, or a configuration
without its last option. -/
inductive Spoilt (d : Disk git) : Prop
  | begun : git.config d.repo = none → "config" ∈ git.locks d.repo ∨ "HEAD" ∈ git.locks d.repo → Spoilt d
  | locked : (git.config d.repo).isSome → "config" ∈ git.locks d.repo → Spoilt d
  | missing (config : GitConfig) : git.config d.repo = some config → config lastOption = [] → Spoilt d

theorem initMirror_locked (absent : git.config w.disk.repo = none)
    (locked : "config" ∈ git.locks w.disk.repo ∨ "HEAD" ∈ git.locks w.disk.repo)
    (ends : Rules.Ends (exec git net) (initMirror dir).run w result w₁) : result ≠ .ok () := by
  rintro rfl
  obtain ⟨_, w₂, first, later⟩ | ⟨e, -, failed⟩ := Rules.Ends.of_bindExcept ends
  case inr => cases failed
  obtain ⟨_, w₃, made, last⟩ := Rules.Ends.of_op first
  obtain _ | _ := last
  obtain rfl : w₂ = { w with disk := { w.disk with dir := true } } := made
  obtain ⟨_, w₃, first, -⟩ | ⟨e, -, failed⟩ := Rules.Ends.of_bindExcept later
  case inr => cases failed
  obtain ⟨r, runs, -⟩ := ran rfl (ends_run first)
  exact documented.init_locked net _ _ r absent locked runs rfl

/-- The url of the remote is set on what is there, or not at all. -/
theorem prepare_set {config : GitConfig} (here : git.config w.disk.repo = some config)
    (ends : Rules.Ends (exec git net) (prepare dir false).run w (.ok ()) w₁) : "config" ∉ git.locks w.disk.repo ∧
    ∃ config₁, git.config w₁.disk.repo = some config₁ ∧ ∀ key, key ≠ urlKey → config₁ key = config key := by
  obtain ⟨url₁, w₂, first, setting⟩ | ⟨e, -, failed⟩ := Rules.Ends.of_bindExcept ends
  case inr => cases failed
  obtain ⟨rfl, -⟩ := ends_upstreamArgument first
  have setting : Rules.Ends (exec git net) (run (.remoteSetUrl url₁)).run w₂ (.ok ()) w₁ := setting
  obtain ⟨-, r, runs, rfl⟩ | ⟨-, failed, -⟩ := ends_run setting
  case inr => cases failed
  refine ⟨fun locked => ?_, documented.set_url_only net _ config url₁ _ r here runs⟩
  exact documented.set_url_locked net _ url₁ _ r locked runs rfl

/-- An operation that runs no command for the configuration. -/
def Op.Reads (o : Op) : Prop := ∀ c, o = .git c → ¬c.Configures

omit documented in
theorem only_memory (f : Memory → Memory) : (memory f).run.Only Op.Reads :=
  ⟨fun _ same => (by cases same), fun _ => trivial⟩

omit documented in
theorem only_run {c : GitCommand} (reads : ¬c.Configures) : (run c).run.Only Op.Reads := by
  refine ⟨fun other same => ?_, fun _ => trivial⟩
  cases same
  exact reads

omit documented in
theorem only_readHeads : readHeads.run.Only Op.Reads :=
  Rules.only_bindExcept (only_run id) fun _ => Rules.only_bindExcept (only_memory _) fun _ =>
    ⟨fun _ same => (by cases same), fun _ => trivial⟩

omit documented in
theorem only_signed (sha : String) : (signed sha).run.Only Op.Reads := by
  refine Rules.only_bindExcept (only_memory _) fun m => ?_
  split
  · exact trivial
  · exact Rules.only_bindExcept (only_run id) fun _ => trivial

omit documented in
theorem only_updatePilot : updatePilot.run.Only Op.Reads := by
  refine Rules.only_bindExcept (only_memory _) fun m => ?_
  split
  · exact trivial
  · split
    · refine Rules.only_bindExcept (only_signed _) fun good => ?_
      split
      · exact only_run id
      · exact Rules.only_bindExcept (only_memory _) fun _ => trivial
    · exact trivial

omit documented in
theorem only_refresh : refresh.run.Only Op.Reads := by
  refine Rules.only_bindExcept (only_run id) fun _ => Rules.only_bindExcept (only_memory _) fun _ => ?_
  refine Rules.only_bindExcept only_readHeads fun _ => Rules.only_bindExcept only_updatePilot fun _ => ?_
  exact Rules.only_bindExcept only_readHeads fun _ => Rules.only_bindExcept (only_memory _) fun _ => trivial

/-- A fetch writes no configuration, whatever it finds. -/
theorem refresh_config (ends : Rules.Ends (exec git net) refresh.run w result w₁) :
    git.config w₁.disk.repo = git.config w.disk.repo := by
  refine ends.kept_of_only (fun w₁ => git.config w₁.disk.repo = git.config w.disk.repo) only_refresh ?_ rfl
  intro o w₂ answer w₃ reads run same
  cases o with
  | memory f =>
    obtain ⟨-, rfl⟩ := run
    exact same
  | configExists =>
    obtain ⟨-, rfl⟩ := run
    exact same
  | mkdir =>
    cases run
    exact same
  | persistTips =>
    cases run
    exact same
  | git c =>
    obtain ⟨-, r, runs, rfl⟩ | ⟨-, -, rfl⟩ := run
    · exact (documented.keeps net c _ answer r (reads c rfl) runs).trans same
    · exact same

/-- From a disk that is spoilt no call succeeds with a complete configuration. -/
theorem not_served (spoilt : Spoilt w.disk) (binaries : w.memory.binariesOk = true)
    (set_ : w.memory.upstream.getD "" ≠ "") (ends : Rules.Ends (exec git net) (fetchMirror dir).run w result w₁) :
    ¬(result = .ok () ∧ Complete dir url w₁.disk) := by
  rintro ⟨rfl, complete⟩
  obtain ⟨-, idle | idle⟩ | ⟨w₂, w₃, between, disk, -, -, tried, same, ok⟩ := ends_fetchMirror ends
  · rw [binaries] at idle
    cases idle
  · exact set_ idle
  obtain rfl := ok.mp rfl
  obtain ⟨_, w₄, first, fetching⟩ | ⟨e, -, failed⟩ := Rules.Ends.of_bindExcept tried
  case inr => cases failed
  cases here : git.config w.disk.repo with
  | none =>
    rw [here] at first
    have locked : "config" ∈ git.locks w.disk.repo ∨ "HEAD" ∈ git.locks w.disk.repo := by
      cases spoilt with
      | begun _ locked => exact locked
      | locked there => simp [here] at there
      | missing config there => simp [here] at there
    exact initMirror_locked documented (by rw [disk, here]) (by rw [disk]; exact locked) first rfl
  | some config =>
    rw [here] at first
    obtain ⟨unlocked, config₁, here₄, only⟩ := prepare_set documented (by rw [disk, here]) first
    cases spoilt with
    | begun absent =>
      rw [here] at absent
      cases absent
    | locked _ locked =>
      rw [disk] at unlocked
      exact unlocked locked
    | missing _ there missing =>
      cases here.symm.trans there
      obtain ⟨config₂, found, holds⟩ := complete
      rw [same, refresh_config documented fetching, here₄] at found
      cases found
      have last := holds.done _ (mem_options dir)
      rw [only _ (by decide)] at last
      exact absurd (last.symm.trans missing) (List.cons_ne_nil _ _)

theorem exists_exec (net : Network) (o : Op) (w : World git) : ∃ answer w₁, exec git net o w answer w₁ := by
  cases o with
  | memory f => exact ⟨_, _, rfl, rfl⟩
  | configExists => exact ⟨_, _, rfl, rfl⟩
  | mkdir => exact ⟨(), _, rfl⟩
  | persistTips => exact ⟨(), _, rfl⟩
  | git c =>
    cases made : w.disk.dir with
    | true =>
      obtain ⟨answer, r, runs⟩ := documented.ends net c w.disk.repo
      exact ⟨answer, _, .inl ⟨made, r, runs, rfl⟩⟩
    | false => exact ⟨_, _, .inr ⟨made, rfl, rfl⟩⟩

variable {d d₁ : Disk git}

theorem servable_of_later (servable : Servable dir d) (later : Relation.ReflTransGen (Call git dir) d d₁) :
    Servable dir d₁ := by
  induction later with
  | refl => exact servable
  | tail _ call ih =>
    obtain ⟨net, memory, result, w, ends, rfl⟩ := call
    exact (served documented "" ih ends).1

theorem survives_of_servable (servable : Servable dir d) : Survives git dir d := by
  intro d₁ later net memory url binaries upstream set_ reachable result w ends
  exact (served documented url (servable_of_later documented servable later) ends).2 binaries upstream set_ reachable

end

/-- A process that has everything it needs. -/
def aMemory : Memory where
  state := .absent
  binariesOk := true
  populated := false
  lastError := none
  upstream := some "https://forge/fleet.git"
  rings := ⟨"main", "main"⟩
  signers := []
  cached := ⟨none, none, []⟩

section

variable {git : Git} {net : Network} {dir : String}

theorem not_survives (documented : git.Documented) {d : Disk git} (spoilt : Spoilt d) : ¬Survives git dir d := by
  intro survives
  obtain ⟨result, w, ends⟩ := Rules.exists_ends (exists_exec documented fun _ => some []) (fetchMirror dir).run ⟨d, aMemory⟩
  have set_ : aMemory.upstream.getD "" ≠ "" := by decide
  exact not_served documented spoilt rfl set_ ends
    (survives d .refl (fun _ => some []) aMemory "https://forge/fleet.git" rfl rfl (by decide) rfl result w ends)

/-- The mirror survives the interruptions of `initMirror` before its configuration exists or after its last
option, where they leave no lock. Nothing else has been locked before than what `git init` locks. -/
theorem survives_iff (documented : git.Documented) {w w₁ : World git} (absent : git.config w.disk.repo = none)
    (begun : ∀ f ∈ git.locks w.disk.repo, f = "config" ∨ f = "HEAD")
    (stops : Rules.Stops (exec git net) (cut git) (initMirror dir).run w w₁) :
    Survives git dir w₁.disk ↔ AtAnEnd git w₁.disk := by
  have left := stops_initMirror documented absent begun stops
  constructor
  · intro survives
    have sound : ¬Spoilt w₁.disk := fun spoilt => not_survives documented spoilt survives
    obtain ⟨none_, locks⟩ | ⟨config, here, missing⟩ | ⟨config, url, halted, holds⟩ := left
    · refine ⟨List.eq_nil_iff_forall_not_mem.mpr fun f member => ?_, .inl none_⟩
      obtain rfl | rfl := locks f member
      · exact sound (.begun none_ (.inl member))
      · exact sound (.begun none_ (.inr member))
    · exact absurd (.missing config here missing) sound
    · refine ⟨List.eq_nil_iff_forall_not_mem.mpr fun f member => ?_, .inr ⟨config, halted.config, ?_⟩⟩
      · obtain rfl := halted.locks f member
        exact sound (.locked (by rw [halted.config]; rfl) member)
      · rw [holds.done _ (mem_options dir)]
        exact List.cons_ne_nil _ _
  · intro ⟨unlocked, whole⟩
    refine survives_of_servable documented ⟨unlocked, ?_⟩
    obtain none_ | ⟨config, here, written⟩ := whole
    · exact .inl none_
    · obtain ⟨none_, -⟩ | ⟨config₁, here₁, missing⟩ | ⟨config₁, url, halted, holds⟩ := left
      · exact .inl none_
      · rw [here] at here₁
        cases here₁
        exact absurd missing written
      · exact .inr ⟨halted.dir, halted.repository, url, config₁, halted.config, holds⟩

end

/-! A fresh data directory. -/

def emptyWorld : World plainGit := ⟨⟨false, ⟨none, [], []⟩⟩, aMemory⟩

/-- Stopped behind its last option, `initMirror` leaves a mirror that survives. -/
theorem survives_iff_initialised : ∃ w₁ : World plainGit,
    Rules.Stops (exec plainGit fun _ => none) (cut plainGit) (initMirror "/app/data/git").run emptyWorld w₁ ∧
      Complete "/app/data/git" "https://forge/fleet.git" w₁.disk ∧ Survives plainGit "/app/data/git" w₁.disk := by
  obtain ⟨result, w₁, ends⟩ := Rules.exists_ends (exists_exec documented_plainGit fun _ => none)
    (initMirror "/app/data/git").run emptyWorld
  obtain ⟨-, -, config, here, holds⟩ := ends_initMirror documented_plainGit rfl rfl rfl ends
  have stops : Rules.Stops (exec plainGit fun _ => none) (cut plainGit) (initMirror "/app/data/git").run emptyWorld w₁ :=
    Rules.Ends.stops ends
  refine ⟨w₁, stops, ⟨config, here.repo.config, holds⟩, ?_⟩
  refine (survives_iff documented_plainGit rfl (by simp [emptyWorld, plainGit]) stops).mpr ⟨here.repo.unlocked, .inr ?_⟩
  refine ⟨config, here.repo.config, ?_⟩
  rw [holds.done _ (mem_options _)]
  exact List.cons_ne_nil _ _

/-- Stopped behind `git init`, there is a configuration without the remote. -/
theorem not_survives_initialised : ∃ (git : Git) (w w₁ : World git), git.Documented ∧ git.config w.disk.repo = none ∧
    git.locks w.disk.repo = [] ∧
    Rules.Stops (exec git fun _ => none) (cut git) (initMirror "/app/data/git").run w w₁ ∧
      ¬Survives git "/app/data/git" w₁.disk := by
  let initialised : World plainGit := ⟨⟨true, ⟨some Directory.bare, [], []⟩⟩, aMemory⟩
  have made : exec plainGit (fun _ => none) .mkdir emptyWorld () ⟨⟨true, ⟨none, [], []⟩⟩, aMemory⟩ := rfl
  have init : exec plainGit (fun _ => none) (.git .init) ⟨⟨true, ⟨none, [], []⟩⟩, aMemory⟩ (.ok ()) initialised :=
    .inl ⟨rfl, _, rfl, rfl⟩
  refine ⟨plainGit, emptyWorld, initialised, documented_plainGit, rfl, rfl, .op made (.op init .here), ?_⟩
  exact not_survives documented_plainGit (.missing _ rfl (by decide))

end Opale.Linux.GitMirror
