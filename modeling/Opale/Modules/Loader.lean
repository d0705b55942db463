import Opale.Effects.Interruption
import Opale.Relations.Topological

namespace Opale.Modules

open Relations Program

/-- What the default export of a module says of it. -/
structure Module where
  name : String
  requires : List String
  deriving DecidableEq

inductive LoadError where
  | forcedOn (name : String)
  | badExport (name : String)
  | disabled (name dep : String)
  | unsorted (why : Unsorted String)
  | notRegistered (name : String)

/-- The texts of the errors that the loader throws itself. -/
def LoadError.message : LoadError → Option String
  | .forcedOn name => some s!"Module '{name}' ne peut pas être désactivé"
  | .badExport name => some ("Module " ++ name ++ " : index.js doit exporter default \x7b name: '" ++ name ++ "', ... \x7d")
  | .disabled name dep => some (s!"Module '{name}' requiert '{dep}' mais '{dep}' est désactivé. " ++
      s!"Activez-le dans modules.config.js ou désactivez '{name}'.")
  | .unsorted (.cycle name) => some s!"Cycle de dépendances détecté impliquant le module '{name}'"
  | .unsorted _ | .notRegistered _ => none

/-- An import that fails, or gives no default export, has no answer; `register` says whether it has ended well. -/
inductive LoaderOp where
  | load (name : String)
  | register (name : String)

abbrev LoaderOp.Res : LoaderOp → Type
  | .load _ => Option Module
  | .register _ => Bool

def FORCED_ON : List String := ["core"]

/-- The names in a configuration that are switched on. -/
def enabledModuleNames (config : List (String × Bool)) : List String := (config.filter (·.2)).map (·.1)

/-- `modules[name].requires` -/
def requiresOf (modules : List Module) (name : String) : Option (List String) :=
  (modules.find? (·.name = name)).map (·.requires)

def topoSort (modules : List Module) : Except (Unsorted String) (List String) :=
  topological (requiresOf modules) (modules.map (·.name))

/-- The first module that requires one that is not there, with that one. -/
def disabledDependency (modules : List Module) : Option (String × String) :=
  modules.findSome? fun m => (m.requires.find? fun dep => (requiresOf modules dep).isNone).map (m.name, ·)

def load (name : String) : Program LoaderOp.Res (Option Module) := perform (LoaderOp.load name)

def register (name : String) : Program LoaderOp.Res Bool := perform (LoaderOp.register name)

def importAll : List String → List Module → Program LoaderOp.Res (Except LoadError (List Module))
  | [], modules => pure (.ok modules)
  | name :: rest, modules => do
    match ← load name with
    | none => pure (.error (.badExport name))
    | some m => if m.name = name then importAll rest (modules ++ [m]) else pure (.error (.badExport name))

def registerAll (modules : List Module) : List String → Program LoaderOp.Res (Except LoadError (List Module))
  | [] => pure (.ok modules)
  | name :: rest => do
    if ← register name then registerAll modules rest else pure (.error (.notRegistered name))

def loadModules (config : List (String × Bool)) : Program LoaderOp.Res (Except LoadError (List Module)) :=
  let enabled := enabledModuleNames config
  match FORCED_ON.find? fun forced => !enabled.contains forced with
  | some forced => pure (.error (.forcedOn forced))
  | none => do
    match ← importAll enabled [] with
    | .error why => pure (.error why)
    | .ok modules =>
      match disabledDependency modules with
      | some (name, dep) => pure (.error (.disabled name dep))
      | none =>
        match topoSort modules with
        | .error why => pure (.error (.unsorted why))
        | .ok order => registerAll modules order

/-- The history of a start: the imports with what they gave, and the modules whose `register` has been called and has
ended well. -/
structure LoaderWorld where
  imports : List (String × Option Module)
  called : List String
  registered : List String

def LoaderWorld.imported (w : LoaderWorld) : List Module := w.imports.filterMap (·.2)

inductive loaderExec : (o : LoaderOp) → LoaderWorld → o.Res → LoaderWorld → Prop
  | load {name answer w} : loaderExec (.load name) w answer { w with imports := w.imports ++ [(name, answer)] }
  | registered {name w} : loaderExec (.register name) w true
      { w with called := w.called ++ [name], registered := w.registered ++ [name] }
  | thrown {name w} : loaderExec (.register name) w false { w with called := w.called ++ [name] }

/-- The modules are registered in an order in which each comes after all that it requires; the last
one that was called may not have ended. -/
structure Lawful (w : LoaderWorld) : Prop where
  ordered : InOrder (requiresOf w.imported) w.called
  ended : w.called = w.registered ∨ ∃ name, w.called = w.registered ++ [name]

theorem requiresOf_eq_none {modules : List Module} {name : String} :
    requiresOf modules name = none ↔ name ∉ modules.map (·.name) := by
  unfold requiresOf
  rw [Option.map_eq_none_iff, List.find?_eq_none]
  simp

def loaderRules : Rules LoaderOp.Res LoaderWorld where
  exec := loaderExec
  inv := Lawful
  rely := Eq
  guarantee _ _ _ _ := True
  rely_refl _ := rfl
  rely_trans := Eq.trans

variable {config : List (String × Bool)} {names order rest : List String} {modules : List Module} {w : LoaderWorld}

/-- The last import was that of `name`, and it has given no module of this name. -/
def FailedImport (name : String) (w : LoaderWorld) : Prop :=
  ∃ answer, w.imports.getLast? = some (name, answer) ∧ ∀ m ∈ answer, m.name ≠ name

/-- What is known when a start has ended. -/
def Loaded (config : List (String × Bool)) : Except LoadError (List Module) → LoaderWorld → Prop
  | .ok modules, w => w.imported = modules ∧ w.registered = w.called ∧
      InOrder (requiresOf modules) w.registered ∧ (∀ name, name ∈ w.registered ↔ name ∈ enabledModuleNames config) ∧
      ∀ name ∈ FORCED_ON, name ∈ w.registered
  | .error (.notRegistered name), w => w.called = w.registered ++ [name]
  | .error (.unsorted why), w => w.called = [] ∧ ∃ name, why = .cycle name ∧ Relation.TransGen (Needs (requiresOf w.imported)) name name
  | .error (.disabled name dep), w => w.called = [] ∧ name ∈ enabledModuleNames config ∧ dep ∉ enabledModuleNames config ∧
      ∃ m ∈ w.imported, m.name = name ∧ dep ∈ m.requires
  | .error (.badExport name), w => w.called = [] ∧ name ∈ enabledModuleNames config ∧ FailedImport name w
  | .error (.forcedOn name), w => w.called = [] ∧ name ∈ FORCED_ON ∧ name ∉ enabledModuleNames config

/-- Nothing has been registered, and these modules have been imported. -/
structure Begun (modules : List Module) (w : LoaderWorld) : Prop where
  imported : w.imported = modules
  called : w.called = []
  registered : w.registered = []

theorem Begun.lawful (begun : Begun modules w) : Lawful w where
  ordered := begun.called ▸ .nil
  ended := .inl (begun.called.trans begun.registered.symm)

/-- What the imports end with: each of the modules is the one that was asked for. -/
def Imported (before names : List String) : Except LoadError (List Module) → LoaderWorld → Prop
  | .ok modules, w => Begun modules w ∧ modules.map (·.name) = before ++ names
  | .error why, w => ∃ name ∈ names, why = .badExport name ∧ w.called = [] ∧ FailedImport name w

theorem importAll_safe (begun : Begun modules w) (names : List String) :
    loaderRules.Safe (Imported (modules.map (·.name)) names) (importAll names modules) w := by
  induction names generalizing modules w with
  | nil =>
    rintro w₁ rfl _
    exact ⟨begun, (List.append_nil _).symm⟩
  | cons name names ih =>
    rintro w₁ rfl _ answer w₂ run
    cases run with
    | load =>
    have asked : (w.imports ++ [(name, answer)]).getLast? = some (name, answer) := List.getLast?_concat
    have lawful : Lawful { w with imports := w.imports ++ [(name, answer)] } :=
      ⟨begun.called ▸ .nil, .inl (begun.called.trans begun.registered.symm)⟩
    refine ⟨lawful, trivial, ?_⟩
    cases answer with
    | none =>
      rintro w₃ rfl _
      refine ⟨name, List.mem_cons_self, rfl, begun.called, none, asked, ?_⟩
      rintro m ⟨⟩
    | some m =>
      have next : Begun (modules ++ [m]) { w with imports := w.imports ++ [(name, some m)] } :=
        ⟨by rw [LoaderWorld.imported, List.filterMap_append, ← begun.imported]; rfl, begun.called, begun.registered⟩
      change loaderRules.Safe _ (if m.name = name then importAll names (modules ++ [m]) else .ret (.error (.badExport name))) _
      split
      · next same =>
        refine (ih next).weaken fun result w₁ _ ended => ?_
        cases result with
        | error why =>
          obtain ⟨bad, member, ended⟩ := ended
          exact ⟨bad, List.mem_cons_of_mem name member, ended⟩
        | ok all =>
          refine ⟨ended.1, ended.2.trans ?_⟩
          rw [List.map_append, List.append_assoc, ← same]
          rfl
      · next other =>
        rintro w₃ rfl _
        refine ⟨name, List.mem_cons_self, rfl, begun.called, some m, asked, fun m₁ is => ?_⟩
        rwa [← Option.some.inj is]

/-- What the registrations end with. -/
def Registered (modules : List Module) (order : List String) : Except LoadError (List Module) → LoaderWorld → Prop
  | .ok all, w => all = modules ∧ w.imported = modules ∧ w.called = order ∧ w.registered = order
  | .error why, w => ∃ name, why = .notRegistered name ∧ w.called = w.registered ++ [name]

theorem registerAll_safe (sorted : InOrder (requiresOf modules) order) (imported : w.imported = modules)
    (split : order = w.called ++ rest) (ended : w.registered = w.called) :
    loaderRules.Safe (Registered modules order) (registerAll modules rest) w := by
  induction rest generalizing w with
  | nil =>
    rw [List.append_nil] at split
    rintro w₁ rfl _
    exact ⟨rfl, imported, split.symm, ended.trans split.symm⟩
  | cons name rest ih =>
    have more : order = (w.called ++ [name]) ++ rest := by rw [split, List.append_assoc, List.singleton_append]
    have ordered : InOrder (requiresOf w.imported) (w.called ++ [name]) := by
      rw [imported]
      exact sorted.of_isPrefix ⟨rest, more.symm⟩
    rintro w₁ rfl _ answer w₂ run
    cases run with
    | registered =>
      refine ⟨⟨ordered, .inl (by rw [ended])⟩, trivial, ?_⟩
      exact ih imported more (by rw [ended])
    | thrown =>
      refine ⟨⟨ordered, .inr ⟨name, by rw [ended]⟩⟩, trivial, ?_⟩
      rintro w₃ rfl _
      exact ⟨name, rfl, by rw [ended]⟩

theorem names_known {name : String} {deps : List String} (found : requiresOf modules name = some deps) :
    name ∈ modules.map (·.name) := by
  by_contra absent
  cases (requiresOf_eq_none.mpr absent).symm.trans found

theorem closed_of_none (total : disabledDependency modules = none) {name dep : String} {deps : List String}
    (found : requiresOf modules name = some deps) (member : dep ∈ deps) : requiresOf modules dep ≠ none := by
  obtain ⟨m, here, rfl⟩ := Option.map_eq_some_iff.mp found
  have nothing := Option.map_eq_none_iff.mp (List.findSome?_eq_none_iff.mp total m (List.mem_of_find?_eq_some here))
  intro absent
  exact List.find?_eq_none.mp nothing dep member (by rw [absent]; rfl)

theorem disabled_of_some {name dep : String} (some_ : disabledDependency modules = some (name, dep)) :
    dep ∉ modules.map (·.name) ∧ ∃ m ∈ modules, m.name = name ∧ dep ∈ m.requires := by
  obtain ⟨m, inside, found⟩ := List.exists_of_findSome?_eq_some some_
  obtain ⟨d, here, is⟩ := Option.map_eq_some_iff.mp found
  cases is
  refine ⟨requiresOf_eq_none.mp ?_, m, inside, rfl, List.mem_of_find?_eq_some here⟩
  simpa using List.find?_some here

/-- Where every requirement is enabled, only a circle stands in the way of an order. -/
theorem topoSort_spec (total : disabledDependency modules = none) :
    match topoSort modules with
    | .ok order => InOrder (requiresOf modules) order ∧ ∀ name, name ∈ order ↔ name ∈ modules.map (·.name)
    | .error why => ∃ name, why = .cycle name ∧ Relation.TransGen (Needs (requiresOf modules)) name name := by
  have known : ∀ name deps, requiresOf modules name = some deps → name ∈ modules.map (·.name) := fun _ _ => names_known
  have spec := topological_spec known
  unfold topoSort
  cases result : topological (requiresOf modules) (modules.map (·.name)) with
  | ok order =>
    rw [result] at spec
    exact spec
  | error why =>
    rw [result] at spec
    cases why with
    | cycle name => exact ⟨name, rfl, spec.2⟩
    | exhausted => exact spec.elim
    | missing name =>
      obtain ⟨⟨start, member, way⟩, absent⟩ := spec
      refine absurd absent ?_
      rcases Relation.ReflTransGen.cases_tail way with rfl | ⟨before, -, deps, found, last⟩
      · exact fun absent => requiresOf_eq_none.mp absent member
      · exact closed_of_none total found last

theorem loadModules_safe (begun : Begun [] w) : loaderRules.Safe (Loaded config) (loadModules config) w := by
  unfold loadModules
  dsimp only
  split
  · next forced missing =>
    rintro w₁ rfl _
    exact ⟨begun.called, List.mem_of_find?_eq_some missing, by simpa using List.find?_some missing⟩
  next all =>
  have forced : ∀ name ∈ FORCED_ON, name ∈ enabledModuleNames config := by simpa using List.find?_eq_none.mp all
  refine Rules.Safe.bind (importAll_safe begun (enabledModuleNames config)) begun.lawful fun result w lawful ended => ?_
  cases result with
  | error why =>
    obtain ⟨name, member, rfl, called, failed⟩ := ended
    rintro w₁ rfl _
    exact ⟨called, member, failed⟩
  | ok modules =>
  obtain ⟨begun, names⟩ := ended
  rw [List.map_nil, List.nil_append] at names
  dsimp only
  split
  · next name dep disabled =>
    rintro w₁ rfl _
    obtain ⟨absent, m, inside, rfl, required⟩ := disabled_of_some disabled
    rw [names] at absent
    exact ⟨begun.called, names ▸ List.mem_map_of_mem inside, absent, m, begun.imported ▸ inside, rfl, required⟩
  · next total =>
    have spec := topoSort_spec total
    cases sorted : topoSort modules with
    | error why =>
      rw [sorted] at spec
      rintro w₁ rfl _
      exact ⟨begun.called, by rw [begun.imported]; exact spec⟩
    | ok order =>
      rw [sorted] at spec
      have start : order = w.called ++ order := by rw [begun.called, List.nil_append]
      refine (registerAll_safe spec.1 begun.imported start (begun.registered.trans begun.called.symm)).weaken
        fun result w₁ _ ended => ?_
      cases result with
      | error why =>
        obtain ⟨name, rfl, called⟩ := ended
        exact called
      | ok all =>
        obtain ⟨rfl, imported, called, registered⟩ := ended
        have listed : ∀ name, name ∈ w₁.registered ↔ name ∈ enabledModuleNames config := by
          intro name
          rw [registered, spec.2, names]
        exact ⟨imported, registered.trans called.symm, registered ▸ spec.1, listed, fun name member => (listed name).mpr (forced name member)⟩

/-- However the imports and the registrations go, at any point of a start: each module is registered once, after all that
it requires; a start that ends has registered all the enabled modules, or says truly why it has not. -/
theorem modules_registered :
    (∀ w, Rules.Stops loaderExec (fun _ _ _ => False) (loadModules config) ⟨[], [], []⟩ w → Lawful w) ∧
    ∀ w result, Rules.Ends loaderExec (loadModules config) ⟨[], [], []⟩ result w → Loaded config result w := by
  have begun : Begun [] ⟨[], [], []⟩ := ⟨rfl, rfl, rfl⟩
  exact ⟨fun w stops => (loadModules_safe begun).stops begun.lawful stops,
    fun w result ends => Rules.Safe.ends ends (loadModules_safe begun) begun.lawful⟩

end Opale.Modules
