import Opale.Monitoring.Compliance

namespace Opale.Monitoring

open Sql
open Evaluation (perform)

/-- The server with its log, the calls that wait to be run, and the promises that are not settled: each
in the hands of a thread, or of nobody yet. -/
structure ComplianceWorld where
  db : Logged ComplianceDb ComplianceChange ComplianceLock
  spawned : List Task
  owner : Settling → Option (Option Nat)

/-- The status that a change gives to the pair. -/
def resultIn (deviceId : Nat) (rule : RuleId) : ComplianceChange → Option ComplianceStatus
  | ⟨.results r, key, row⟩ => if r = rule ∧ key = deviceId then row.map (·.status) else none
  | _ => none

/-- The change of the pair that an audit records. -/
def auditIn (deviceId : Nat) (rule : RuleId) : ComplianceChange → Option (ComplianceStatus × ComplianceStatus)
  | ⟨.audits, _, some a⟩ => if a.target = deviceId ∧ a.ruleId = rule then some (a.before, a.after) else none
  | _ => none

/-- The values of the row of the pair, one after the other. -/
def values (db₀ : ComplianceDb) (deviceId : Nat) (rule : RuleId) (log : List (List ComplianceChange)) : List ComplianceStatus :=
  ((db₀ (.results rule))[deviceId]?.map (·.status)).toList ++ log.flatten.filterMap (resultIn deviceId rule)

/-- The audits of the pair, one after the other. -/
def auditsOf (deviceId : Nat) (rule : RuleId) (log : List (List ComplianceChange)) :
    List (ComplianceStatus × ComplianceStatus) := log.flatten.filterMap (auditIn deviceId rule)

/-- The changes between `pass` and `fail` of consecutive values. -/
def flips : List ComplianceStatus → List (ComplianceStatus × ComplianceStatus)
  | before :: after :: rest =>
    (if isPassFailTransition before after then [(before, after)] else []) ++ flips (after :: rest)
  | _ => []

/-- The promises that a statement opens: that of its evaluation, and that of the audit of what it changes. -/
def promised (t : Nat) : (s : ComplianceStmt) → Option s.Ans → ComplianceWorld → Settling → Option (Option Nat)
  | .previous deviceId, some _, w => Function.update w.owner (.evaluation deviceId) (some (some t))
  | .upsertResult deviceId rule verdict, some _, w =>
    if (w.db.store.committed (.results rule.id))[deviceId]?.any fun row => isPassFailTransition row.status verdict.status then
      Function.update w.owner (.task .audit deviceId rule.id) (some (some t))
    else w.owner
  | _, _, w => w.owner

def complianceExec (t : Nat) : (o : ComplianceOp) → ComplianceWorld → o.Res → ComplianceWorld → Prop
  | .sql s, w, answer, w₁ => ∃ db, complianceSchema.logged t (.query s) w.db answer db ∧
      w₁ = ⟨db, w.spawned, promised t s answer w⟩
  | .spawn task, w, _, w₁ => w₁ = ⟨w.db, w.spawned ++ [task], Function.update w.owner task.settling (some none)⟩
  | .take, w, some task, w₁ => ∃ before after, w.spawned = before ++ task :: after ∧
      w₁ = ⟨w.db, before ++ after, Function.update w.owner task.settling (some (some t))⟩
  | .settled p, w, _, w₁ => w₁ = ⟨w.db, w.spawned, Function.update w.owner p none⟩
  | _, w, _, w₁ => w₁ = w

/-- An admin accepts or rejects a proposal. -/
def reviewed (w w₁ : ComplianceWorld) : Prop :=
  ∃ (id : Nat) (p : Proposal) (status : ProposalStatus), (w.db.store.committed .proposals)[id]? = some p ∧ status ≠ .pending ∧
    w₁ = { w with db := ⟨complianceSchema.publish [⟨.proposals, id, some { p with status := status }⟩] w.db.store,
      w.db.log ++ [[⟨.proposals, id, some { p with status := status }⟩]]⟩ }

/-- Any number of evaluations at the same time, and what they do not await. -/
def complianceThreads : Threads ComplianceOp.Res ComplianceWorld where
  exec := complianceExec
  env := reviewed
  entry program := (∃ deviceId hostname, program = evaluateAndPersist deviceId hostname) ∨ program = worker
  drop _ w := w

/-- No statement fails. -/
def Answered : (o : ComplianceOp) → o.Res → Prop
  | .sql _, answer => answer ≠ none
  | _, _ => True

/-- Nothing of an evaluation of the device is under way. -/
def Quiet (deviceId : Nat) (w : ComplianceWorld) : Prop := ∀ p : Settling, p.deviceId = deviceId → w.owner p = none

/-- An evaluation begins when nothing of those before it, on its device, is under way. -/
def Alone : ComplianceOp → ComplianceWorld → Prop
  | .sql (.previous deviceId), w => Quiet deviceId w
  | _, _ => True

/-- At most one proposal waits for each pair. -/
def ProposedOnce (db : ComplianceDb) : Prop :=
  ∀ (deviceId : Nat) (rule : RuleId) (i j : Nat) (p q : Proposal), (db .proposals)[i]? = some p → (db .proposals)[j]? = some q →
    p.pendingFor rule deviceId = true → q.pendingFor rule deviceId = true → i = j

/-- The audits are the changes, each once, where no evaluation is under way; and never do two proposals wait. -/
structure Recorded (db₀ : ComplianceDb) (w : ComplianceWorld) : Prop where
  audits : ∀ deviceId rule, Quiet deviceId w → auditsOf deviceId rule w.db.log = flips (values db₀ deviceId rule w.db.log)
  proposals : ProposedOnce w.db.store.committed

variable {db₀ : ComplianceDb} {w w₁ w₂ : ComplianceWorld} {t u deviceId : Nat} {rule : RuleId}

theorem flips_append (statuses : List ComplianceStatus) (after : ComplianceStatus) :
    flips (statuses ++ [after]) = flips statuses ++
      if statuses.getLast?.any (isPassFailTransition · after) then [(statuses.getLast?.getD after, after)] else [] := by
  induction statuses with
  | nil => rfl
  | cons first rest ih =>
    cases rest with
    | nil => exact List.append_nil _
    | cons second rest =>
      have last : (first :: second :: rest).getLast? = (second :: rest).getLast? := List.getLast?_cons_cons
      rw [last, List.cons_append, List.cons_append]
      unfold flips
      rw [← List.cons_append, ih, List.append_assoc]

theorem values_append (batch : List ComplianceChange) (log : List (List ComplianceChange)) :
    values db₀ deviceId rule (log ++ [batch]) = values db₀ deviceId rule log ++ batch.filterMap (resultIn deviceId rule) := by
  unfold values
  rw [List.flatten_append, List.filterMap_append, List.flatten_singleton, List.append_assoc]

theorem auditsOf_append (batch : List ComplianceChange) (log : List (List ComplianceChange)) :
    auditsOf deviceId rule (log ++ [batch]) = auditsOf deviceId rule log ++ batch.filterMap (auditIn deviceId rule) := by
  unfold auditsOf
  rw [List.flatten_append, List.filterMap_append, List.flatten_singleton]

/-- The audit of the change is still to be written, and none before it. -/
def Owes (db₀ : ComplianceDb) (f : Flip) (log : List (List ComplianceChange)) : Prop :=
  flips (values db₀ f.deviceId f.rule.id log) = auditsOf f.deviceId f.rule.id log ++ [(f.before, f.after)]

def NoneWaits (deviceId : Nat) (rule : RuleId) (db : ComplianceDb) : Prop :=
  ∀ (id : Nat) (p : Proposal), (db .proposals)[id]? = some p → p.pendingFor rule deviceId = false

structure Coherent (db₀ : ComplianceDb) (w : ComplianceWorld) : Prop where
  rows : ∀ deviceId rule, (w.db.store.committed (.results rule))[deviceId]?.map (·.status) =
    (values db₀ deviceId rule w.db.log).getLast?
  even : ∀ deviceId rule, w.owner (.task .audit deviceId rule) = none →
    auditsOf deviceId rule w.db.log = flips (values db₀ deviceId rule w.db.log)
  pool : ∀ task ∈ w.spawned, w.owner task.settling = some none
  owes : ∀ task ∈ w.spawned, task.kind = .audit → Owes db₀ task.flip w.db.log
  distinct : (w.spawned.map Task.settling).Nodup
  once : ProposedOnce w.db.store.committed

/-- What a thread accepts of the others, for the promises in its hands. -/
structure Respects (db₀ : ComplianceDb) (t : Nat) (w w₁ : ComplianceWorld) : Prop where
  own : ∀ p, w.owner p = some (some t) → w₁.owner p = some (some t)
  evaluation : ∀ deviceId, w.owner (.evaluation deviceId) = some (some t) → ∀ rule,
    values db₀ deviceId rule w₁.db.log = values db₀ deviceId rule w.db.log ∧
      ∀ kind, w.owner (.task kind deviceId rule) = none → w₁.owner (.task kind deviceId rule) = none
  audit : ∀ deviceId rule, w.owner (.task .audit deviceId rule) = some (some t) →
    values db₀ deviceId rule w₁.db.log = values db₀ deviceId rule w.db.log ∧
      auditsOf deviceId rule w₁.db.log = auditsOf deviceId rule w.db.log
  proposal : ∀ deviceId rule, w.owner (.task .proposal deviceId rule) = some (some t) →
    NoneWaits deviceId rule w.db.store.committed → NoneWaits deviceId rule w₁.db.store.committed

theorem Respects.refl (t : Nat) (w : ComplianceWorld) : Respects db₀ t w w :=
  ⟨fun _ mine => mine, fun _ _ _ => ⟨rfl, fun _ free => free⟩, fun _ _ _ => ⟨rfl, rfl⟩, fun _ _ _ none_ => none_⟩

theorem Respects.trans (first : Respects db₀ t w w₁) (second : Respects db₀ t w₁ w₂) : Respects db₀ t w w₂ where
  own p mine := second.own p (first.own p mine)
  evaluation deviceId mine rule := by
    obtain ⟨same, free⟩ := first.evaluation deviceId mine rule
    obtain ⟨same₁, free₁⟩ := second.evaluation deviceId (first.own _ mine) rule
    exact ⟨same₁.trans same, fun kind none_ => free₁ kind (free kind none_)⟩
  audit deviceId rule mine := by
    obtain ⟨same, audits⟩ := first.audit deviceId rule mine
    obtain ⟨same₁, audits₁⟩ := second.audit deviceId rule (first.own _ mine)
    exact ⟨same₁.trans same, audits₁.trans audits⟩
  proposal deviceId rule mine none_ :=
    second.proposal deviceId rule (first.own _ mine) (first.proposal deviceId rule mine none_)

def complianceTeam (db₀ : ComplianceDb) : Threads.Team ComplianceOp.Res ComplianceWorld where
  exec t o w answer w₁ := complianceExec t o w answer w₁ ∧ Answered o answer ∧ Alone o w
  inv := Coherent db₀
  rely := Respects db₀
  guarantee _ _ _ _ _ := True
  idle _ _ := True
  rely_refl := Respects.refl
  rely_trans _ := Respects.trans

/-- What the others need to know of a step. -/
abbrev Fair (db₀ : ComplianceDb) (t : Nat) (w w₁ : ComplianceWorld) : Prop :=
  Coherent db₀ w₁ ∧ ∀ u, u ≠ t → Respects db₀ u w w₁

/-- A step that writes neither a result nor an audit, and leaves the promises as they are. -/
theorem fair_unchanged {db : Logged ComplianceDb ComplianceChange ComplianceLock} (coherent : Coherent db₀ w)
    (results : ∀ rule, db.store.committed (.results rule) = w.db.store.committed (.results rule))
    (values_ : ∀ deviceId rule, values db₀ deviceId rule db.log = values db₀ deviceId rule w.db.log)
    (audits : ∀ deviceId rule, auditsOf deviceId rule db.log = auditsOf deviceId rule w.db.log)
    (once : ProposedOnce db.store.committed) (waits : ∀ deviceId rule,
      (∃ u, u ≠ t ∧ w.owner (.task .proposal deviceId rule) = some (some u)) →
        NoneWaits deviceId rule w.db.store.committed → NoneWaits deviceId rule db.store.committed) :
    Fair db₀ t w ⟨db, w.spawned, w.owner⟩ := by
  refine ⟨⟨?_, ?_, coherent.pool, ?_, coherent.distinct, once⟩, fun u other => ⟨fun _ mine => mine, ?_, ?_, ?_⟩⟩
  · intro deviceId rule
    change (db.store.committed (.results rule))[deviceId]?.map _ = _
    rw [results, values_]
    exact coherent.rows deviceId rule
  · intro deviceId rule free
    change auditsOf _ _ db.log = flips (values _ _ _ db.log)
    rw [audits, values_]
    exact coherent.even deviceId rule free
  · intro task member kind
    unfold Owes
    change flips (values _ _ _ db.log) = auditsOf _ _ db.log ++ _
    rw [audits, values_]
    exact coherent.owes task member kind
  · exact fun deviceId _ rule => ⟨values_ deviceId rule, fun _ free => free⟩
  · exact fun deviceId rule _ => ⟨values_ deviceId rule, audits deviceId rule⟩
  · exact fun deviceId rule mine => waits deviceId rule ⟨u, other, mine⟩

/-- The promises move, and the database does not. -/
theorem fair_owner {owner : Settling → Option (Option Nat)} {spawned : List Task} (coherent : Coherent db₀ w)
    (even : ∀ deviceId rule, owner (.task .audit deviceId rule) = none → w.owner (.task .audit deviceId rule) ≠ none →
      auditsOf deviceId rule w.db.log = flips (values db₀ deviceId rule w.db.log))
    (pool : ∀ task ∈ spawned, owner task.settling = some none)
    (owes : ∀ task ∈ spawned, task.kind = .audit → Owes db₀ task.flip w.db.log)
    (distinct : (spawned.map Task.settling).Nodup)
    (own : ∀ u, u ≠ t → ∀ p, w.owner p = some (some u) → owner p = some (some u))
    (free : ∀ u, u ≠ t → ∀ deviceId, w.owner (.evaluation deviceId) = some (some u) → ∀ kind rule,
      w.owner (.task kind deviceId rule) = none → owner (.task kind deviceId rule) = none) :
    Fair db₀ t w ⟨w.db, spawned, owner⟩ := by
  refine ⟨⟨coherent.rows, ?_, pool, owes, distinct, coherent.once⟩, fun u other => ⟨own u other, ?_, ?_, ?_⟩⟩
  · intro deviceId rule none_
    by_cases before : w.owner (.task .audit deviceId rule) = none
    · exact coherent.even deviceId rule before
    · exact even deviceId rule none_ before
  · exact fun deviceId mine rule => ⟨rfl, fun kind none_ => free u other deviceId mine kind rule none_⟩
  · exact fun _ _ _ => ⟨rfl, rfl⟩
  · exact fun _ _ _ none_ => none_

abbrev complianceRules (db₀ : ComplianceDb) (t : Nat) : Rules ComplianceOp.Res ComplianceWorld := (complianceTeam db₀).rules t

/-- The thread evaluates these rules on the device: no call of theirs is under way, and `prevMap` has
their last values. -/
structure Evaluating (db₀ : ComplianceDb) (t deviceId : Nat) (prevMap : List (RuleId × ComplianceStatus)) (rules : List Rule)
    (w : ComplianceWorld) : Prop where
  mine : w.owner (.evaluation deviceId) = some (some t)
  ahead : ∀ rule ∈ rules, (∀ kind, w.owner (.task kind deviceId rule.id) = none) ∧
    prevMap.lookup rule.id = (values db₀ deviceId rule.id w.db.log).getLast?

/-- A change is written, and its audit not yet spawned. -/
structure Telling (db₀ : ComplianceDb) (t : Nat) (prevMap : List (RuleId × ComplianceStatus)) (rules : List Rule) (f : Flip)
    (w : ComplianceWorld) : Prop where
  evaluating : Evaluating db₀ t f.deviceId prevMap rules w
  apart : f.rule.id ∉ rules.map (·.id)
  audit : w.owner (.task .audit f.deviceId f.rule.id) = some (some t)
  owes : Owes db₀ f w.db.log
  proposal : w.owner (.task .proposal f.deviceId f.rule.id) = none

variable {prevMap : List (RuleId × ComplianceStatus)} {rules : List Rule} {f : Flip}

theorem Evaluating.respects (evaluating : Evaluating db₀ t deviceId prevMap rules w) (respects : Respects db₀ t w w₁) :
    Evaluating db₀ t deviceId prevMap rules w₁ where
  mine := respects.own _ evaluating.mine
  ahead rule member := by
    obtain ⟨free, last⟩ := evaluating.ahead rule member
    obtain ⟨same, still⟩ := respects.evaluation deviceId evaluating.mine rule.id
    exact ⟨fun kind => still kind (free kind), by rw [last, same]⟩

theorem Owes.respects (owes : Owes db₀ f w.db.log) (mine : w.owner (.task .audit f.deviceId f.rule.id) = some (some t))
    (respects : Respects db₀ t w w₁) : Owes db₀ f w₁.db.log := by
  obtain ⟨same, audits⟩ := respects.audit _ _ mine
  unfold Owes
  rw [same, audits]
  exact owes

theorem Telling.respects (telling : Telling db₀ t prevMap rules f w) (respects : Respects db₀ t w w₁) :
    Telling db₀ t prevMap rules f w₁ where
  evaluating := telling.evaluating.respects respects
  apart := telling.apart
  audit := respects.own _ telling.audit
  owes := telling.owes.respects telling.audit respects
  proposal := (respects.evaluation _ telling.evaluating.mine f.rule.id).2 _ telling.proposal

/-- A result of the pair, written. -/
def upserted (deviceId : Nat) (rule : Rule) (verdict : Verdict) (now : Int) : ComplianceChange :=
  ⟨.results rule.id, deviceId, some ⟨verdict.status, rule.severity, verdict.value, now⟩⟩

theorem values_upserted {rule : Rule} {verdict : Verdict} {now : Int} {log : List (List ComplianceChange)} (d : Nat) (r : RuleId) :
    values db₀ d r (log ++ [[upserted deviceId rule verdict now]]) =
      values db₀ d r log ++ if rule.id = r ∧ deviceId = d then [verdict.status] else [] := by
  rw [values_append]
  by_cases same : rule.id = r ∧ deviceId = d
  · rw [if_pos same]
    exact congrArg _ (List.filterMap_cons_some (if_pos same))
  · rw [if_neg same]
    exact congrArg _ (List.filterMap_cons_none (if_neg same))

theorem auditsOf_upserted {rule : Rule} {verdict : Verdict} {now : Int} {log : List (List ComplianceChange)} (d : Nat) (r : RuleId) :
    auditsOf d r (log ++ [[upserted deviceId rule verdict now]]) = auditsOf d r log := by
  rw [auditsOf_append]
  exact List.append_nil _

/-- The audit of a change is promised to the thread that writes it. -/
theorem Coherent.promised_upsert (coherent : Coherent db₀ w) (t deviceId : Nat) (rule : Rule) (verdict : Verdict) :
    promised t (.upsertResult deviceId rule verdict) (some ()) w =
      if (values db₀ deviceId rule.id w.db.log).getLast?.any (isPassFailTransition · verdict.status) then
        Function.update w.owner (.task .audit deviceId rule.id) (some (some t))
      else w.owner := by
  rw [← coherent.rows, Option.any_map]
  rfl

/-- The upsert of a result, by the only evaluation of its device. -/
theorem fair_upsert {rule : Rule} {verdict : Verdict} {now : Int} (coherent : Coherent db₀ w)
    (evaluating : Evaluating db₀ t deviceId prevMap (rule :: rules) w) :
    Fair db₀ t w ⟨⟨complianceSchema.publish [upserted deviceId rule verdict now] w.db.store,
      w.db.log ++ [[upserted deviceId rule verdict now]]⟩, w.spawned, promised t (.upsertResult deviceId rule verdict) (some ()) w⟩ := by
  obtain ⟨free, -⟩ := evaluating.ahead rule List.mem_cons_self
  have flip := coherent.promised_upsert t deviceId rule verdict
  have owner (p : Settling) (other : p ≠ .task .audit deviceId rule.id) :
      promised t (.upsertResult deviceId rule verdict) (some ()) w p = w.owner p := by
    rw [flip]
    split
    · exact Function.update_of_ne other ..
    · rfl
  have kept (p : Settling) (taken : w.owner p ≠ none) : promised t (.upsertResult deviceId rule verdict) (some ()) w p = w.owner p := by
    refine owner p ?_
    rintro rfl
    exact taken (free .audit)
  have apart (d : Nat) (r : RuleId) (taken : w.owner (.task .audit d r) ≠ none) : ¬(rule.id = r ∧ deviceId = d) := by
    rintro ⟨rfl, rfl⟩
    exact taken (free .audit)
  have proposals : RowChange.apply (upserted deviceId rule verdict now) w.db.store.committed .proposals =
    w.db.store.committed .proposals := RowChange.apply_other (by unfold upserted; nofun) _
  refine ⟨⟨fun d r => ?_, fun d r none_ => ?_, fun task member => ?_, fun task member kind => ?_, coherent.distinct, ?_⟩,
    fun u other => ⟨fun p mine => ?_, fun d mine r => ⟨?_, fun kind none_ => ?_⟩, fun d r mine => ⟨?_, auditsOf_upserted d r⟩, ?_⟩⟩
  · change (RowChange.apply (upserted deviceId rule verdict now) w.db.store.committed (.results r))[d]?.map _ = (values db₀ d r _).getLast?
    rw [values_upserted]
    by_cases same : rule.id = r ∧ deviceId = d
    · obtain ⟨rfl, rfl⟩ := same
      rw [if_pos ⟨rfl, rfl⟩, List.getLast?_append_of_ne_nil _ (List.cons_ne_nil _ _)]
      exact congrArg (Option.map _) (RowChange.apply_self (upserted deviceId rule verdict now) w.db.store.committed)
    · rw [if_neg same, List.append_nil, ← coherent.rows]
      refine congrArg (Option.map _) (RowChange.apply_of_ne ?_ w.db.store.committed)
      rintro ⟨table, key⟩
      cases table
      exact same ⟨rfl, key.symm⟩
  · rw [auditsOf_upserted, values_upserted]
    by_cases same : rule.id = r ∧ deviceId = d
    · obtain ⟨rfl, rfl⟩ := same
      have quiet : (values db₀ deviceId rule.id w.db.log).getLast?.any (isPassFailTransition · verdict.status) = false := by
        rw [← Bool.not_eq_true]
        intro changes
        have none_ : promised t (.upsertResult deviceId rule verdict) (some ()) w (.task .audit deviceId rule.id) = none := none_
        rw [flip, if_pos changes] at none_
        cases (Function.update_self ..).symm.trans none_
      rw [if_pos ⟨rfl, rfl⟩, flips_append, quiet, if_neg Bool.false_ne_true, List.append_nil]
      exact coherent.even deviceId rule.id (free .audit)
    · rw [if_neg same, List.append_nil]
      refine coherent.even d r ?_
      rw [← owner]
      · exact none_
      · intro here
        cases here
        exact same ⟨rfl, rfl⟩
  · have waits := coherent.pool task member
    exact (kept _ (by rw [waits]; nofun)).trans waits
  · have waits := coherent.pool task member
    have other := apart task.flip.deviceId task.flip.rule.id (by
      have here : task.settling = .task .audit task.flip.deviceId task.flip.rule.id := by rw [← kind]; rfl
      rw [← here, waits]
      nofun)
    unfold Owes
    rw [values_upserted, auditsOf_upserted, if_neg other, List.append_nil]
    exact coherent.owes task member kind
  · change ProposedOnce (RowChange.apply (upserted deviceId rule verdict now) w.db.store.committed)
    unfold ProposedOnce
    rw [proposals]
    exact coherent.once
  · exact (kept p (by rw [mine]; nofun)).trans mine
  · rw [values_upserted, if_neg, List.append_nil]
    rintro ⟨-, rfl⟩
    cases mine.symm.trans evaluating.mine
    exact other rfl
  · refine (owner _ ?_).trans none_
    rintro here
    cases here
    cases mine.symm.trans evaluating.mine
    exact other rfl
  · rw [values_upserted, if_neg (apart d r (by rw [mine]; nofun)), List.append_nil]
  · intro d r _ none_
    change NoneWaits d r (RowChange.apply (upserted deviceId rule verdict now) w.db.store.committed)
    unfold NoneWaits
    rw [proposals]
    exact none_

theorem Fair.trans (first : Fair db₀ t w w₁) (second : Fair db₀ t w₁ w₂) : Fair db₀ t w w₂ :=
  ⟨second.1, fun u other => (first.2 u other).trans (second.2 u other)⟩

theorem fair_read (coherent : Coherent db₀ w) :
    Fair db₀ t w ⟨⟨complianceSchema.publish [] w.db.store, w.db.log ++ [[]]⟩, w.spawned, w.owner⟩ := by
  refine fair_unchanged coherent (fun _ => rfl) (fun d r => ?_) (fun d r => ?_) coherent.once fun _ _ _ none_ => none_
  · exact (values_append _ _).trans (List.append_nil _)
  · exact (auditsOf_append _ _).trans (List.append_nil _)

/-- The evaluation of a device of which nothing is under way. -/
theorem fair_begin (coherent : Coherent db₀ w) (quiet : Quiet deviceId w) :
    Fair db₀ t w ⟨w.db, w.spawned, Function.update w.owner (.evaluation deviceId) (some (some t))⟩ := by
  have task (kind : TaskKind) (d : Nat) (r : RuleId) :
      Function.update w.owner (.evaluation deviceId) (some (some t)) (.task kind d r) = w.owner (.task kind d r) := by
    rw [Function.update_of_ne]
    nofun
  refine fair_owner coherent (fun d r none_ some_ => ?_) (fun pooled member => ?_) coherent.owes coherent.distinct ?_ ?_
  · exact absurd ((task .audit d r).symm.trans none_) some_
  · exact (task ..).trans (coherent.pool pooled member)
  · intro u other p mine
    refine (Function.update_of_ne ?_ ..).trans mine
    rintro rfl
    cases (quiet _ rfl).symm.trans mine
  · exact fun _ _ _ _ kind r free => (task kind _ r).trans free

theorem fair_spawn {task : Task} (coherent : Coherent db₀ w) (mine : w.owner (.evaluation task.flip.deviceId) = some (some t))
    (ready : w.owner task.settling = none ∨ w.owner task.settling = some (some t))
    (owes : task.kind = .audit → Owes db₀ task.flip w.db.log) :
    Fair db₀ t w ⟨w.db, w.spawned ++ [task], Function.update w.owner task.settling (some none)⟩ := by
  have new : ∀ pooled ∈ w.spawned, pooled.settling ≠ task.settling := by
    intro pooled member same
    have waits := coherent.pool pooled member
    rw [same] at waits
    rcases ready with free | held
    · cases free.symm.trans waits
    · cases held.symm.trans waits
  refine fair_owner coherent (fun d r none_ some_ => ?_) (fun pooled member => ?_) (fun pooled member kind => ?_) ?_ ?_ ?_
  · by_cases same : Settling.task .audit d r = task.settling
    · rw [same, Function.update_self] at none_
      cases none_
    · exact absurd ((Function.update_of_ne same ..).symm.trans none_) some_
  · rcases List.mem_append.mp member with old | here
    · exact (Function.update_of_ne (new pooled old) ..).trans (coherent.pool pooled old)
    · rw [List.mem_singleton.mp here]
      exact Function.update_self ..
  · rcases List.mem_append.mp member with old | here
    · exact coherent.owes pooled old kind
    · rw [List.mem_singleton] at here
      subst here
      exact owes kind
  · rw [List.map_append]
    refine List.nodup_append.mpr ⟨coherent.distinct, List.nodup_singleton _, fun a old b here => ?_⟩
    obtain ⟨pooled, member, rfl⟩ := List.mem_map.mp old
    rw [List.mem_singleton.mp here]
    exact new pooled member
  · intro u other p held
    refine (Function.update_of_ne ?_ ..).trans held
    rintro rfl
    rcases ready with free | here
    · cases free.symm.trans held
    · cases here.symm.trans held
      exact other rfl
  · intro u other d evaluates kind r free
    refine (Function.update_of_ne ?_ ..).trans free
    intro same
    cases same
    cases mine.symm.trans evaluates
    exact other rfl

theorem fair_take {task : Task} {before after : List Task} (coherent : Coherent db₀ w) (spawned : w.spawned = before ++ task :: after) :
    Fair db₀ t w ⟨w.db, before ++ after, Function.update w.owner task.settling (some (some t))⟩ := by
  have waits := coherent.pool task (spawned ▸ List.mem_append_right _ List.mem_cons_self)
  have part : (before ++ after).Sublist w.spawned := spawned ▸ (List.Sublist.refl _).append (List.sublist_cons_self ..)
  have distinct := coherent.distinct
  rw [spawned, List.map_append, List.map_cons, List.nodup_middle, List.nodup_cons, ← List.map_append] at distinct
  refine fair_owner coherent (fun d r none_ some_ => ?_) (fun pooled member => ?_)
    (fun pooled member kind => coherent.owes pooled (part.subset member) kind) distinct.2 ?_ ?_
  · by_cases same : Settling.task .audit d r = task.settling
    · rw [same, Function.update_self] at none_
      cases none_
    · exact absurd ((Function.update_of_ne same ..).symm.trans none_) some_
  · refine (Function.update_of_ne ?_ ..).trans (coherent.pool pooled (part.subset member))
    intro same
    exact distinct.1 (same ▸ List.mem_map_of_mem member)
  · intro u other p held
    refine (Function.update_of_ne ?_ ..).trans held
    rintro rfl
    cases waits.symm.trans held
  · intro u other d _ kind r free
    refine (Function.update_of_ne ?_ ..).trans free
    intro same
    rw [same] at free
    cases free.symm.trans waits

theorem fair_settled {p : Settling} (coherent : Coherent db₀ w) (mine : w.owner p = some (some t))
    (even : ∀ d r, p = .task .audit d r → auditsOf d r w.db.log = flips (values db₀ d r w.db.log)) :
    Fair db₀ t w ⟨w.db, w.spawned, Function.update w.owner p none⟩ := by
  refine fair_owner coherent (fun d r none_ some_ => ?_) (fun pooled member => ?_) coherent.owes coherent.distinct ?_ ?_
  · by_cases same : Settling.task .audit d r = p
    · exact even d r same.symm
    · exact absurd ((Function.update_of_ne same ..).symm.trans none_) some_
  · have waits := coherent.pool pooled member
    refine (Function.update_of_ne ?_ ..).trans waits
    rintro rfl
    cases mine.symm.trans waits
  · intro u other q held
    refine (Function.update_of_ne ?_ ..).trans held
    rintro rfl
    cases mine.symm.trans held
    exact other rfl
  · intro u other d _ kind r free
    by_cases same : Settling.task kind d r = p
    · rw [same]
      exact Function.update_self ..
    · exact (Function.update_of_ne same ..).trans free

/-- The audit that its worker owes. -/
theorem fair_audit {now : Int} {id : Nat} (coherent : Coherent db₀ w)
    (mine : w.owner (.task .audit f.deviceId f.rule.id) = some (some t)) :
    Fair db₀ t w ⟨⟨complianceSchema.publish [⟨.audits, id, some (f.audit now)⟩] w.db.store,
      w.db.log ++ [[⟨.audits, id, some (f.audit now)⟩]]⟩, w.spawned, w.owner⟩ := by
  have values_ (d : Nat) (r : RuleId) :
      values db₀ d r (w.db.log ++ [[⟨.audits, id, some (f.audit now)⟩]]) = values db₀ d r w.db.log :=
    (values_append _ _).trans (List.append_nil _)
  have audits (d : Nat) (r : RuleId) (other : ¬(f.deviceId = d ∧ f.rule.id = r)) :
      auditsOf d r (w.db.log ++ [[⟨.audits, id, some (f.audit now)⟩]]) = auditsOf d r w.db.log := by
    have none_ : [(⟨.audits, id, some (f.audit now)⟩ : ComplianceChange)].filterMap (auditIn d r) = [] :=
      List.filterMap_cons_none (if_neg other)
    rw [auditsOf_append, none_, List.append_nil]
  have apart (d : Nat) (r : RuleId) (owner : w.owner (.task .audit d r) ≠ some (some t)) : ¬(f.deviceId = d ∧ f.rule.id = r) := by
    rintro ⟨rfl, rfl⟩
    exact owner mine
  refine ⟨⟨fun d r => ?_, fun d r none_ => ?_, coherent.pool, fun task member kind => ?_, coherent.distinct, coherent.once⟩,
    fun u other => ⟨fun _ held => held, fun d _ r => ⟨values_ d r, fun _ free => free⟩, fun d r held => ⟨values_ d r, ?_⟩,
      fun _ _ _ none_ => none_⟩⟩
  · rw [values_]
    exact coherent.rows d r
  · rw [values_, audits d r (apart d r (by rw [none_]; nofun))]
    exact coherent.even d r none_
  · have waits := coherent.pool task member
    have here : task.settling = .task .audit task.flip.deviceId task.flip.rule.id := by rw [← kind]; rfl
    rw [here] at waits
    unfold Owes
    rw [values_, audits _ _ (apart _ _ (by rw [waits]; nofun))]
    exact coherent.owes task member kind
  · refine audits d r (apart d r ?_)
    rw [held]
    intro same
    cases same
    exact other rfl

theorem proposal_pendingFor {now : Int} {d : Nat} {r : RuleId} :
    (f.proposal now).pendingFor r d = true ↔ f.rule.id = r ∧ f.deviceId = d := by
  change (decide _ && decide _) = true ↔ _
  rw [Bool.and_eq_true, decide_eq_true_eq, decide_eq_true_eq]

/-- A proposal, written. -/
def proposed (id : Nat) (p : Proposal) : ComplianceChange := ⟨.proposals, id, some p⟩

theorem results_proposed (id : Nat) (p : Proposal) (r : RuleId) (db : ComplianceDb) :
    RowChange.apply (proposed id p) db (.results r) = db (.results r) := RowChange.apply_other (by unfold proposed; nofun) db

theorem stored_proposed {id key : Nat} {p q : Proposal} {db : ComplianceDb}
    (stored : (RowChange.apply (proposed id p) db .proposals)[key]? = some q) :
    key = id ∧ q = p ∨ (db .proposals)[key]? = some q := by
  by_cases same : key = id
  · subst same
    have here : (RowChange.apply (proposed key p) db .proposals)[key]? = some p := RowChange.apply_self (proposed key p) db
    exact .inl ⟨rfl, Option.some.inj (stored.symm.trans here)⟩
  · have apart : (RowChange.apply (proposed id p) db .proposals)[key]? = (db .proposals)[key]? :=
      RowChange.apply_of_ne (fun here => same here.2) db
    exact .inr (apart.symm.trans stored)

/-- The proposal of a worker that has seen none. -/
theorem fair_proposal {now : Int} {id : Nat} (coherent : Coherent db₀ w)
    (mine : w.owner (.task .proposal f.deviceId f.rule.id) = some (some t))
    (none_ : NoneWaits f.deviceId f.rule.id w.db.store.committed) :
    Fair db₀ t w ⟨⟨complianceSchema.publish [proposed id (f.proposal now)] w.db.store,
      w.db.log ++ [[proposed id (f.proposal now)]]⟩, w.spawned, w.owner⟩ := by
  have found {key : Nat} {p : Proposal} {d : Nat} {r : RuleId}
      (stored : (RowChange.apply (proposed id (f.proposal now)) w.db.store.committed .proposals)[key]? = some p)
      (waits : p.pendingFor r d = true) : (key = id ∧ f.rule.id = r ∧ f.deviceId = d) ∨
        (w.db.store.committed .proposals)[key]? = some p := by
    rcases stored_proposed stored with ⟨here, rfl⟩ | before
    · exact .inl ⟨here, proposal_pendingFor.mp waits⟩
    · exact .inr before
  refine fair_unchanged coherent (fun r => ?_) (fun d r => ?_) (fun d r => ?_) ?_ ?_
  · exact results_proposed id (f.proposal now) r w.db.store.committed
  · exact (values_append _ _).trans (List.append_nil _)
  · exact (auditsOf_append _ _).trans (List.append_nil _)
  · intro d r i j p q atI atJ waits waits₁
    have absent {key : Nat} {p : Proposal} (stored : (w.db.store.committed .proposals)[key]? = some p)
        (waits : p.pendingFor r d = true) (rule : f.rule.id = r) (device : f.deviceId = d) : False := by
      subst rule device
      cases (none_ key p stored).symm.trans waits
    rcases found atI waits with ⟨rfl, rule, device⟩ | stored
    · rcases found atJ waits₁ with ⟨rfl, -⟩ | stored₁
      · rfl
      · exact (absent stored₁ waits₁ rule device).elim
    · rcases found atJ waits₁ with ⟨rfl, rule, device⟩ | stored₁
      · exact (absent stored waits rule device).elim
      · exact coherent.once d r i j p q stored stored₁ waits waits₁
  · rintro d r ⟨u, other, held⟩ none₁ key p stored
    rw [← Bool.not_eq_true]
    intro waits
    rcases found stored waits with ⟨-, rfl, rfl⟩ | before
    · cases mine.symm.trans held
      exact other rfl
    · cases (none₁ key p before).symm.trans waits

/-- A review takes a proposal out of those that wait. -/
theorem fair_reviewed (coherent : Coherent db₀ w) (review : reviewed w w₁) :
    Coherent db₀ w₁ ∧ ∀ t, Respects db₀ t w w₁ := by
  obtain ⟨id, p, status, stored, decided, rfl⟩ := review
  have found {key : Nat} {q : Proposal} {d : Nat} {r : RuleId}
      (here : (RowChange.apply (proposed id { p with status := status }) w.db.store.committed .proposals)[key]? = some q)
      (waits : q.pendingFor r d = true) : (w.db.store.committed .proposals)[key]? = some q := by
    rcases stored_proposed here with ⟨-, rfl⟩ | before
    · unfold Proposal.pendingFor at waits
      rw [decide_eq_false decided, Bool.and_false, Bool.false_and] at waits
      cases waits
    · exact before
  have fair (t : Nat) : Fair db₀ t w ⟨⟨complianceSchema.publish [proposed id { p with status := status }] w.db.store,
      w.db.log ++ [[proposed id { p with status := status }]]⟩, w.spawned, w.owner⟩ := by
    refine fair_unchanged coherent (fun r => ?_) (fun d r => ?_) (fun d r => ?_) ?_ ?_
    · exact results_proposed id { p with status := status } r w.db.store.committed
    · exact (values_append _ _).trans (List.append_nil _)
    · exact (auditsOf_append _ _).trans (List.append_nil _)
    · exact fun d r i j a b atI atJ waits waits₁ => coherent.once d r i j a b (found atI waits) (found atJ waits₁) waits waits₁
    · intro d r _ none_ key q here
      rw [← Bool.not_eq_true]
      intro waits
      cases (none_ key q (found here waits)).symm.trans waits
  exact ⟨(fair 0).1, fun t => (fair (t + 1)).2 t (Nat.ne_of_lt (Nat.lt_succ_self t))⟩

section

variable {α : Type} {post : α → ComplianceWorld → Prop}

/-- The world after a statement by itself. -/
def afterSql (t : Nat) (s : ComplianceStmt) (out : ComplianceOutcome s.Ans) (w : ComplianceWorld) : ComplianceWorld :=
  ⟨⟨complianceSchema.publish out.changes w.db.store, w.db.log ++ [out.changes]⟩, w.spawned, promised t s (some out.answer) w⟩

theorem safe_sql {s : ComplianceStmt} {next : Option s.Ans → Evaluation α}
    (goes : ∀ (w₁ : ComplianceWorld) draw out, Respects db₀ t w w₁ → Coherent db₀ w₁ → Alone (.sql s) w₁ →
      s.run draw w₁.db.store.committed = some out → Fair db₀ t w₁ (afterSql t s out w₁) ∧
        (complianceRules db₀ t).Safe post (next (some out.answer)) (afterSql t s out w₁)) :
    (complianceRules db₀ t).Safe post (perform (.sql s) >>= next) w := by
  intro w₁ respects coherent answer w₂ ⟨⟨db, run, same⟩, answered, begins⟩
  obtain ⟨draw, out, ran, -, rfl, rfl⟩ | ⟨nothing, -⟩ := run
  · obtain ⟨fair, later⟩ := goes w₁ draw out respects coherent begins ran
    rw [same]
    exact ⟨fair.1, ⟨fair.2, trivial⟩, later⟩
  · exact absurd nothing answered

/-- An operation that changes nothing here. -/
theorem safe_silent {o : ComplianceOp} {next : o.Res → Evaluation α}
    (silent : ∀ (w₁ : ComplianceWorld) answer w₂, complianceExec t o w₁ answer w₂ → w₂ = w₁)
    (goes : ∀ (w₁ : ComplianceWorld) answer, Respects db₀ t w w₁ → (complianceRules db₀ t).Safe post (next answer) w₁) :
    (complianceRules db₀ t).Safe post (perform o >>= next) w := by
  intro w₁ respects coherent answer w₂ ⟨run, _⟩
  rw [silent w₁ answer w₂ run]
  exact ⟨coherent, ⟨fun u _ => .refl u w₁, trivial⟩, goes w₁ answer respects⟩

theorem safe_spawn {task : Task} {next : Unit → Evaluation α} (goes : ∀ w₁ : ComplianceWorld, Respects db₀ t w w₁ →
      w₁.owner (.evaluation task.flip.deviceId) = some (some t) ∧
      (w₁.owner task.settling = none ∨ w₁.owner task.settling = some (some t)) ∧
      (task.kind = .audit → Owes db₀ task.flip w₁.db.log) ∧
      (complianceRules db₀ t).Safe post (next ()) ⟨w₁.db, w₁.spawned ++ [task], Function.update w₁.owner task.settling (some none)⟩) :
    (complianceRules db₀ t).Safe post (perform (.spawn task) >>= next) w := by
  intro w₁ respects coherent answer w₂ ⟨run, _⟩
  obtain rfl := run
  obtain ⟨mine, ready, owes, later⟩ := goes w₁ respects
  have fair := fair_spawn coherent mine ready owes
  exact ⟨fair.1, ⟨fair.2, trivial⟩, later⟩

theorem safe_settled {p : Settling} (goes : ∀ w₁ : ComplianceWorld, Respects db₀ t w w₁ → w₁.owner p = some (some t) ∧
      ∀ d r, p = .task .audit d r → auditsOf d r w₁.db.log = flips (values db₀ d r w₁.db.log)) :
    (complianceRules db₀ t).Safe (fun _ _ => True) (perform (.settled p)) w := by
  intro w₁ respects coherent answer w₂ ⟨run, _⟩
  obtain rfl := run
  obtain ⟨mine, even⟩ := goes w₁ respects
  have fair := fair_settled coherent mine even
  exact ⟨fair.1, ⟨fair.2, trivial⟩, fun _ _ _ => trivial⟩

end

/-- A promise that the rest of the evaluation does not need. -/
theorem Evaluating.spawned (kind : TaskKind) (evaluating : Evaluating db₀ t deviceId prevMap rules w)
    (apart : rule ∉ rules.map (·.id)) (tasks : List Task) :
    Evaluating db₀ t deviceId prevMap rules ⟨w.db, tasks, Function.update w.owner (.task kind deviceId rule) (some none)⟩ where
  mine := by
    dsimp only
    rw [Function.update_of_ne]
    · exact evaluating.mine
    · nofun
  ahead next member := by
    obtain ⟨free, last⟩ := evaluating.ahead next member
    refine ⟨fun k => ?_, last⟩
    dsimp only
    rw [Function.update_of_ne]
    · exact free k
    · intro same
      obtain ⟨-, -, rfl⟩ := Settling.task.inj same
      exact apart (List.mem_map_of_mem member)

theorem safe_tellFlip (alertsEnabled : Bool) (telling : Telling db₀ t prevMap rules f w) :
    (complianceRules db₀ t).Safe (fun _ => Evaluating db₀ t f.deviceId prevMap rules) (tellFlip alertsEnabled f) w := by
  unfold tellFlip
  refine safe_spawn fun w₁ respects => ?_
  have telling₁ := telling.respects respects
  refine ⟨telling₁.evaluating.mine, .inr telling₁.audit, fun _ => telling₁.owes, ?_⟩
  have evaluating := telling₁.evaluating.spawned .audit telling₁.apart (w₁.spawned ++ [⟨.audit, f⟩])
  have proposal : Function.update w₁.owner (Task.settling ⟨.audit, f⟩) (some none)
      (.task .proposal f.deviceId f.rule.id) = none := by
    rw [Function.update_of_ne]
    · exact telling₁.proposal
    · nofun
  split
  case isFalse => exact fun w₂ respects₂ _ => evaluating.respects respects₂
  case isTrue =>
    refine safe_silent (fun _ _ _ run => run) fun w₂ _ respects₂ => safe_spawn fun w₃ respects₃ => ?_
    have evaluating₃ := (evaluating.respects respects₂).respects respects₃
    have both := (respects₂.trans respects₃).evaluation _ evaluating.mine f.rule.id
    refine ⟨evaluating₃.mine, .inl (both.2 .proposal proposal), nofun, fun w₄ respects₄ _ => ?_⟩
    have spawned := evaluating₃.spawned .proposal telling₁.apart (w₃.spawned ++ [⟨.proposal, f⟩])
    exact spawned.respects respects₄

theorem Evaluating.tail {rule : Rule} (evaluating : Evaluating db₀ t deviceId prevMap (rule :: rules) w) :
    Evaluating db₀ t deviceId prevMap rules w :=
  ⟨evaluating.mine, fun next member => evaluating.ahead next (List.mem_cons_of_mem rule member)⟩

/-- The other rules, after the upsert of one. -/
theorem Evaluating.upserted {rule : Rule} (evaluating : Evaluating db₀ t deviceId prevMap (rule :: rules) w)
    (coherent : Coherent db₀ w) (verdict : Verdict) (now : Int) (apart : rule.id ∉ rules.map (·.id)) :
    Evaluating db₀ t deviceId prevMap rules (afterSql t (.upsertResult deviceId rule verdict)
      ⟨(), [Monitoring.upserted deviceId rule verdict now], []⟩ w) := by
  have owner (p : Settling) (other : p ≠ .task .audit deviceId rule.id) :
      promised t (.upsertResult deviceId rule verdict) (some ()) w p = w.owner p := by
    rw [coherent.promised_upsert]
    split
    · exact Function.update_of_ne other ..
    · rfl
  refine ⟨(owner (.evaluation deviceId) nofun).trans evaluating.mine, fun next member => ?_⟩
  obtain ⟨free, last⟩ := evaluating.ahead next (List.mem_cons_of_mem rule member)
  have other : rule.id ≠ next.id := fun same => apart (same ▸ List.mem_map_of_mem member)
  refine ⟨fun kind => (owner _ ?_).trans (free kind), ?_⟩
  · exact fun same => other (Settling.task.inj same).2.2.symm
  · rw [last]
    change _ = (values db₀ deviceId next.id (w.db.log ++ [[Monitoring.upserted deviceId rule verdict now]])).getLast?
    rw [values_upserted, if_neg fun same => other same.1, List.append_nil]

/-- What is to be told of a change that has been written. -/
theorem Evaluating.telling {rule : Rule} {verdict : Verdict} {now : Int} {before : ComplianceStatus} {hostname : Option String}
    (evaluating : Evaluating db₀ t deviceId prevMap (rule :: rules) w) (coherent : Coherent db₀ w)
    (written : Evaluating db₀ t deviceId prevMap rules (afterSql t (.upsertResult deviceId rule verdict)
      ⟨(), [Monitoring.upserted deviceId rule verdict now], []⟩ w)) (apart : rule.id ∉ rules.map (·.id))
    (found : prevMap.lookup rule.id = some before) (changes : isPassFailTransition before verdict.status = true) :
    Telling db₀ t prevMap rules ⟨deviceId, hostname, rule, before, verdict.status, verdict.value⟩
      (afterSql t (.upsertResult deviceId rule verdict) ⟨(), [Monitoring.upserted deviceId rule verdict now], []⟩ w) := by
  obtain ⟨free, last⟩ := evaluating.ahead rule List.mem_cons_self
  have latest : (values db₀ deviceId rule.id w.db.log).getLast? = some before := last.symm.trans found
  have any : (values db₀ deviceId rule.id w.db.log).getLast?.any (isPassFailTransition · verdict.status) = true := by
    rw [latest]
    exact changes
  have promise := coherent.promised_upsert t deviceId rule verdict
  rw [if_pos any] at promise
  refine ⟨written, apart, ?_, ?_, ?_⟩
  · change promised t (.upsertResult deviceId rule verdict) (some ()) w _ = _
    rw [promise]
    exact Function.update_self ..
  · change flips (values db₀ deviceId rule.id (w.db.log ++ [[Monitoring.upserted deviceId rule verdict now]])) =
      auditsOf deviceId rule.id (w.db.log ++ [[Monitoring.upserted deviceId rule verdict now]]) ++ _
    rw [values_upserted, auditsOf_upserted, if_pos ⟨rfl, rfl⟩, flips_append, if_pos any, latest,
      coherent.even deviceId rule.id (free .audit)]
    rfl
  · change promised t (.upsertResult deviceId rule verdict) (some ()) w _ = _
    rw [promise, Function.update_of_ne]
    · exact free .proposal
    · nofun

theorem safe_evaluateRule {rule : Rule} (hostname : Option String) (alertsEnabled : Bool)
    (evaluating : Evaluating db₀ t deviceId prevMap (rule :: rules) w) (apart : rule.id ∉ rules.map (·.id)) :
    (complianceRules db₀ t).Safe (fun _ => Evaluating db₀ t deviceId prevMap rules)
      (evaluateRule deviceId hostname prevMap alertsEnabled rule) w := by
  unfold evaluateRule
  refine safe_silent (fun _ _ _ run => run) fun w₁ verdict respects => ?_
  have evaluating₁ := evaluating.respects respects
  cases verdict with
  | none => exact fun w₂ respects₂ _ => (evaluating₁.respects respects₂).tail
  | some verdict =>
    refine safe_sql fun w₂ draw out respects₂ coherent _ ran => ?_
    have evaluating₂ := evaluating₁.respects respects₂
    obtain rfl : (⟨(), [upserted deviceId rule verdict draw.now], []⟩ : ComplianceOutcome Unit) = out := by
      simp only [ComplianceStmt.run] at ran
      split at ran
      · exact Option.some.inj ran
      · cases ran
    refine ⟨fair_upsert coherent evaluating₂, ?_⟩
    have written := evaluating₂.upserted coherent verdict draw.now apart
    obtain ⟨free, last⟩ := evaluating₂.ahead rule List.mem_cons_self
    cases found : prevMap.lookup rule.id with
    | none => exact fun w₃ respects₃ _ => written.respects respects₃
    | some before =>
      dsimp only
      split
      case isFalse => exact fun w₃ respects₃ _ => written.respects respects₃
      case isTrue changes => exact safe_tellFlip alertsEnabled (evaluating₂.telling coherent written apart found changes)

theorem safe_evaluateRules (hostname : Option String) (alertsEnabled : Bool) (rules : List Rule)
    (distinct : (rules.map (·.id)).Nodup) {w : ComplianceWorld} (coherent : Coherent db₀ w)
    (evaluating : Evaluating db₀ t deviceId prevMap rules w) :
    (complianceRules db₀ t).Safe (fun _ => Evaluating db₀ t deviceId prevMap [])
      (evaluateRules deviceId hostname prevMap alertsEnabled rules) w := by
  induction rules generalizing w with
  | nil => exact fun w₁ respects _ => evaluating.respects respects
  | cons rule rules ih =>
    rw [List.map_cons, List.nodup_cons] at distinct
    exact (safe_evaluateRule hostname alertsEnabled evaluating distinct.1).bind coherent fun _ _ coherent₁ evaluating₁ =>
      ih distinct.2 coherent₁ evaluating₁

theorem ids_distinct : (RULES.map (·.id)).Nodup := by decide

theorem lookup_filterMap {α β : Type} {f : RuleId → Option α} {g : α → β} {id : RuleId} {ids : List RuleId} (member : id ∈ ids) :
    (ids.filterMap fun r => (f r).map fun row => (r, g row)).lookup id = (f id).map g := by
  induction ids with
  | nil => exact absurd member List.not_mem_nil
  | cons r ids ih =>
    by_cases same : r = id
    · subst same
      cases found : f r with
      | none =>
        rw [List.filterMap_cons_none (by rw [found]; rfl)]
        by_cases later : r ∈ ids
        · rw [ih later, found]
        · refine List.lookup_eq_none_iff.mpr fun e inside => ?_
          obtain ⟨key, here, pair⟩ := List.mem_filterMap.mp inside
          obtain ⟨row, -, rfl⟩ := Option.map_eq_some_iff.mp pair
          exact bne_iff_ne.mpr fun there : r = key => later (there ▸ here)
      | some row =>
        rw [List.filterMap_cons_some (by rw [found]; rfl)]
        exact List.lookup_cons_self
    · have later : id ∈ ids := (List.mem_cons.mp member).resolve_left (Ne.symm same)
      cases found : f r with
      | none => rw [List.filterMap_cons_none (by rw [found]; rfl), ih later]
      | some row =>
        rw [List.filterMap_cons_some (by rw [found]; rfl), List.lookup_cons, beq_eq_false_iff_ne.mpr (Ne.symm same)]
        exact ih later

theorem safe_evaluateAndPersist (deviceId : Nat) (hostname : Option String) :
    (complianceRules db₀ t).Safe (fun _ _ => True) (evaluateAndPersist deviceId hostname) w := by
  unfold evaluateAndPersist
  refine safe_sql fun w₁ draw out _ coherent quiet ran => ?_
  obtain rfl := Option.some.inj ran
  have read := fair_read (t := t) coherent
  have began := fair_begin (t := t) read.1 quiet
  refine ⟨read.trans began, ?_⟩
  have evaluating : Evaluating db₀ t deviceId (previousResults w₁.db.store.committed deviceId) RULES
      (afterSql t (.previous deviceId) ⟨previousResults w₁.db.store.committed deviceId, [],
        (previousResults w₁.db.store.committed deviceId).map fun e => .row (.results e.1) deviceId⟩ w₁) := by
    refine ⟨Function.update_self .., fun rule member => ⟨fun kind => ?_, ?_⟩⟩
    · unfold afterSql promised
      dsimp only
      rw [Function.update_of_ne]
      · exact quiet (.task kind deviceId rule.id) rfl
      · nofun
    · have last := began.1.rows deviceId rule.id
      exact (lookup_filterMap (List.mem_map_of_mem member)).trans last
  refine safe_sql fun w₂ draw₂ out₂ respects₂ coherent₂ _ ran₂ => ?_
  obtain rfl := Option.some.inj ran₂
  have read₂ := fair_read (t := t) coherent₂
  refine ⟨read₂, ?_⟩
  have still := (fair_read (t := t + 1) coherent₂).2 t (Nat.ne_of_lt (Nat.lt_succ_self t))
  have evaluating₂ := evaluating.respects (respects₂.trans still)
  refine (safe_evaluateRules hostname _ RULES ids_distinct read₂.1 evaluating₂).bind read₂.1 fun _ w₃ _ evaluating₃ => ?_
  exact safe_settled fun w₄ respects₄ => ⟨respects₄.own _ evaluating₃.mine, nofun⟩

theorem safe_audit (f : Flip) (mine : w.owner (.task .audit f.deviceId f.rule.id) = some (some t)) (owes : Owes db₀ f w.db.log) :
    (complianceRules db₀ t).Safe (fun _ _ => True) (runTask ⟨.audit, f⟩) w := by
  refine safe_sql fun w₁ draw out respects coherent _ ran => ?_
  have mine₁ := respects.own _ mine
  have owes₁ := owes.respects mine respects
  obtain rfl : (⟨(), [⟨.audits, draw.id, some (f.audit draw.now)⟩], []⟩ : ComplianceOutcome Unit) = out := by
    simp only [ComplianceStmt.run] at ran
    split at ran
    · cases ran
    · exact Option.some.inj ran
  refine ⟨fair_audit coherent mine₁, safe_settled fun w₂ respects₂ => ⟨respects₂.own _ mine₁, fun d r same => ?_⟩⟩
  obtain ⟨-, rfl, rfl⟩ := Settling.task.inj same
  obtain ⟨values_, audits⟩ := respects₂.audit f.deviceId f.rule.id mine₁
  have written : auditsOf f.deviceId f.rule.id (w₁.db.log ++ [[⟨.audits, draw.id, some (f.audit draw.now)⟩]]) =
      auditsOf f.deviceId f.rule.id w₁.db.log ++ [(f.before, f.after)] := by
    rw [auditsOf_append]
    exact congrArg _ (List.filterMap_cons_some (if_pos ⟨rfl, rfl⟩))
  have unwritten : values db₀ f.deviceId f.rule.id (w₁.db.log ++ [[⟨.audits, draw.id, some (f.audit draw.now)⟩]]) =
      values db₀ f.deviceId f.rule.id w₁.db.log := (values_append _ _).trans (List.append_nil _)
  rw [audits, values_]
  exact written.trans (owes₁.symm.trans (congrArg flips unwritten.symm))

theorem noneWaits_of_empty {deviceId : Nat} {rule : RuleId} {db : ComplianceDb}
    (empty : ((db .proposals).select fun _ p => p.pendingFor rule deviceId).isEmpty = true) : NoneWaits deviceId rule db := by
  intro id p stored
  rw [← Bool.not_eq_true]
  intro waits
  have member := (Table.mem_select (p := fun _ p => p.pendingFor rule deviceId)).mpr ⟨stored, waits⟩
  rw [List.isEmpty_iff.mp empty] at member
  exact absurd member List.not_mem_nil

theorem safe_proposal (f : Flip) (mine : w.owner (.task .proposal f.deviceId f.rule.id) = some (some t)) :
    (complianceRules db₀ t).Safe (fun _ _ => True) (runTask ⟨.proposal, f⟩) w := by
  refine safe_sql fun w₁ draw out respects coherent _ ran => ?_
  have mine₁ := respects.own _ mine
  have settles (w₂ : ComplianceWorld) (here : w₂.owner (.task .proposal f.deviceId f.rule.id) = some (some t)) :
      (complianceRules db₀ t).Safe (fun _ _ => True) (perform (.settled (Task.settling ⟨.proposal, f⟩))) w₂ :=
    safe_settled fun w₃ respects₃ => ⟨respects₃.own _ here, nofun⟩
  simp only [ComplianceStmt.run] at ran
  split at ran
  case isFalse some_ =>
    obtain ⟨e, -, rfl⟩ := Option.map_eq_some_iff.mp ran
    exact ⟨fair_read coherent, settles _ mine₁⟩
  case isTrue empty =>
    obtain rfl := Option.some.inj ran
    refine ⟨fair_read coherent, safe_sql fun w₂ draw₂ out₂ respects₂ coherent₂ _ ran₂ => ?_⟩
    have mine₂ := respects₂.own _ mine₁
    have none_ := respects₂.proposal _ _ mine₁ (noneWaits_of_empty empty)
    obtain rfl : (⟨draw₂.id, [proposed draw₂.id (f.proposal draw₂.now)], []⟩ : ComplianceOutcome Nat) = out₂ := by
      simp only [ComplianceStmt.run] at ran₂
      split at ran₂
      · cases ran₂
      · exact Option.some.inj ran₂
    exact ⟨fair_proposal coherent₂ mine₂ none_, settles _ mine₂⟩

theorem safe_worker : (complianceRules db₀ t).Safe (fun _ _ => True) worker w := by
  intro w₁ _ coherent answer w₂ ⟨run, _⟩
  cases answer with
  | none =>
    obtain rfl := run
    exact ⟨coherent, ⟨fun u _ => .refl u w₂, trivial⟩, fun _ _ _ => trivial⟩
  | some task =>
    obtain ⟨before, after, spawned, rfl⟩ := run
    have fair := fair_take (t := t) coherent spawned
    refine ⟨fair.1, ⟨fair.2, trivial⟩, ?_⟩
    have mine : Function.update w₁.owner task.settling (some (some t)) task.settling = some (some t) := Function.update_self ..
    obtain ⟨kind, f⟩ := task
    cases kind with
    | audit => exact safe_audit f mine (coherent.owes _ (spawned ▸ List.mem_append_right _ List.mem_cons_self) rfl)
    | proposal => exact safe_proposal f mine

theorem complianceThreads_verified (db₀ : ComplianceDb) :
    (complianceThreads.restrict fun _ o w answer _ => Answered o answer ∧ Alone o w).Verified (complianceTeam db₀) where
  exec run := run
  env coherent review := fair_reviewed coherent review
  entry allowed _ _ := by
    obtain ⟨deviceId, hostname, rfl⟩ | rfl := allowed
    · exact safe_evaluateAndPersist deviceId hostname
    · exact safe_worker
  drop coherent := ⟨coherent, fun _ _ _ => trivial, fun _ _ => .refl _ _⟩

def complianceStart (db₀ : ComplianceDb) (w : ComplianceWorld) : Prop :=
  ProposedOnce db₀ ∧ w = ⟨⟨.start db₀, []⟩, [], fun _ => none⟩

theorem coherent_start (once : ProposedOnce db₀) : Coherent db₀ ⟨⟨.start db₀, []⟩, [], fun _ => none⟩ where
  rows deviceId rule := by
    unfold values
    rw [List.flatten_nil, List.filterMap_nil, List.append_nil]
    change (db₀ (.results rule))[deviceId]?.map _ = _
    cases (db₀ (.results rule))[deviceId]? <;> rfl
  even deviceId rule _ := by
    unfold values auditsOf
    rw [List.flatten_nil, List.filterMap_nil, List.filterMap_nil, List.append_nil]
    cases (db₀ (.results rule))[deviceId]?.map (·.status) <;> rfl
  pool _ member := absurd member List.not_mem_nil
  owes _ member := absurd member List.not_mem_nil
  distinct := List.nodup_nil
  once := once

/-- Of every two evaluations of a device, the second begins after what the first has spawned is done. -/
theorem evaluations_recorded (db₀ : ComplianceDb) {c : Threads.Config ComplianceOp.Res ComplianceWorld}
    (reach : (complianceThreads.restrict fun _ o w answer _ => Answered o answer ∧ Alone o w).Reach (complianceStart db₀) c) :
    Recorded db₀ c.world := by
  have coherent : Coherent db₀ c.world := by
    refine reach.inv (complianceThreads_verified db₀) fun w ⟨once, start⟩ => ⟨?_, fun _ _ _ _ => trivial⟩
    rw [start]
    exact coherent_start once
  exact ⟨fun deviceId rule quiet => coherent.even deviceId rule (quiet _ rfl), coherent.once⟩

/-! Two check-ins of one machine find that BitLocker is off. -/

def bitlocker : Rule := ⟨.bitlocker_c_active, .high, "BitLocker activé sur C:"⟩

def bitlockerOff : Flip := ⟨1, none, bitlocker, .pass, .fail, none⟩

def encrypted : ComplianceDb
  | .devices => (∅ : Table _).insert 1 ()
  | .results .bitlocker_c_active => (∅ : Table _).insert 1 ⟨.pass, .high, none, 0⟩
  | .settings => (∅ : Table _).insert 1 ⟨"compliance_alerts_enabled", "true"⟩
  | _ => ∅

theorem encrypted_once : ProposedOnce encrypted := by
  intro deviceId rule i j p q stored
  have nothing : (∅ : Table Proposal)[i]? = some p := stored
  cases nothing

/-- An evaluation by itself, up to the audit and the proposal. -/
theorem evaluations_recorded_fails : ∃ c, (complianceThreads.restrict fun _ o w answer _ => Answered o answer ∧ Alone o w).Reach
    (complianceStart encrypted) c ∧ auditsOf 1 .bitlocker_c_active c.world.db.log = [(.pass, .fail)] ∧
      (c.world.db.store.committed .proposals)[1]? = some (bitlockerOff.proposal 4) ∧ Recorded encrypted c.world := by
  have r : (complianceThreads.restrict fun _ o w answer _ => Answered o answer ∧ Alone o w).Reach (complianceStart encrypted) _ :=
    .init ⟨encrypted_once, rfl⟩
  have r := r.begins 0 _ rfl (.inl ⟨1, none, rfl⟩)
  have r := r.perform 0 rfl (some [(.bitlocker_c_active, .pass)]) _ ⟨⟨_, .inl ⟨⟨1, 0⟩, _, rfl, fun _ _ => .inl rfl, rfl, rfl⟩, rfl⟩, nofun, fun _ _ => rfl⟩
  have r := r.perform 0 rfl (some (some "true")) _ ⟨⟨_, .inl ⟨⟨1, 0⟩, _, rfl, fun _ _ => .inl rfl, rfl, rfl⟩, rfl⟩, nofun, trivial⟩
  have r := r.perform 0 rfl (some ⟨.fail, none⟩) _ ⟨rfl, trivial, trivial⟩
  have r := r.perform 0 rfl (some ()) _ ⟨⟨_, .inl ⟨⟨2, 0⟩, _, rfl, fun _ _ => .inl rfl, rfl, rfl⟩, rfl⟩, nofun, trivial⟩
  have r := r.perform 0 rfl () _ ⟨rfl, trivial, trivial⟩
  have r := r.perform 0 rfl () _ ⟨rfl, trivial, trivial⟩
  have r := r.perform 0 rfl () _ ⟨rfl, trivial, trivial⟩
  -- the other rules find nothing to say
  have r := r.perform 0 rfl none _ ⟨rfl, trivial, trivial⟩
  have r := r.perform 0 rfl none _ ⟨rfl, trivial, trivial⟩
  have r := r.perform 0 rfl none _ ⟨rfl, trivial, trivial⟩
  have r := r.perform 0 rfl none _ ⟨rfl, trivial, trivial⟩
  have r := r.perform 0 rfl none _ ⟨rfl, trivial, trivial⟩
  have r := r.perform 0 rfl none _ ⟨rfl, trivial, trivial⟩
  have r := r.perform 0 rfl none _ ⟨rfl, trivial, trivial⟩
  have r := r.perform 0 rfl none _ ⟨rfl, trivial, trivial⟩
  have r := r.perform 0 rfl none _ ⟨rfl, trivial, trivial⟩
  have r := r.perform 0 rfl none _ ⟨rfl, trivial, trivial⟩
  have r := r.perform 0 rfl none _ ⟨rfl, trivial, trivial⟩
  have r := r.perform 0 rfl () _ ⟨rfl, trivial, trivial⟩
  have r := r.begins 1 _ rfl (.inr rfl)
  have r := r.perform 1 rfl (some ⟨.audit, bitlockerOff⟩) _ ⟨⟨[], _, rfl, rfl⟩, trivial, trivial⟩
  have r := r.perform 1 rfl (some ()) _ ⟨⟨_, .inl ⟨⟨3, 1⟩, _, rfl, fun _ _ => .inl rfl, rfl, rfl⟩, rfl⟩, nofun, trivial⟩
  have r := r.perform 1 rfl () _ ⟨rfl, trivial, trivial⟩
  have r := r.begins 2 _ rfl (.inr rfl)
  have r := r.perform 2 rfl (some ⟨.proposal, bitlockerOff⟩) _ ⟨⟨[], _, rfl, rfl⟩, trivial, trivial⟩
  have r := r.perform 2 rfl (some none) _ ⟨⟨_, .inl ⟨⟨3, 0⟩, _, rfl, fun _ _ => .inl rfl, rfl, rfl⟩, rfl⟩, nofun, trivial⟩
  have r := r.perform 2 rfl (some 1) _ ⟨⟨_, .inl ⟨⟨4, 1⟩, _, rfl, fun _ _ => .inl rfl, rfl, rfl⟩, rfl⟩, nofun, trivial⟩
  have r := r.perform 2 rfl () _ ⟨rfl, trivial, trivial⟩
  exact ⟨_, r, rfl, rfl, evaluations_recorded encrypted r⟩

/-- Both evaluations read `pass` before either writes `fail`; both proposals are then looked for before
either is written. -/
theorem proposals_twice : ¬∀ db₀ c, (complianceThreads.restrict fun _ o _ answer _ => Answered o answer).Reach
    (complianceStart db₀) c → Recorded db₀ c.world := by
  intro recorded
  have r : (complianceThreads.restrict fun _ o _ answer _ => Answered o answer).Reach (complianceStart encrypted) _ :=
    .init ⟨encrypted_once, rfl⟩
  have r := r.begins 0 _ rfl (.inl ⟨1, none, rfl⟩)
  have r := r.begins 1 _ rfl (.inl ⟨1, none, rfl⟩)
  have r := r.perform 0 rfl (some [(.bitlocker_c_active, .pass)]) _ ⟨⟨_, .inl ⟨⟨1, 0⟩, _, rfl, fun _ _ => .inl rfl, rfl, rfl⟩, rfl⟩, nofun⟩
  have r := r.perform 1 rfl (some [(.bitlocker_c_active, .pass)]) _ ⟨⟨_, .inl ⟨⟨1, 0⟩, _, rfl, fun _ _ => .inl rfl, rfl, rfl⟩, rfl⟩, nofun⟩
  have r := r.perform 0 rfl (some (some "true")) _ ⟨⟨_, .inl ⟨⟨1, 0⟩, _, rfl, fun _ _ => .inl rfl, rfl, rfl⟩, rfl⟩, nofun⟩
  have r := r.perform 1 rfl (some (some "true")) _ ⟨⟨_, .inl ⟨⟨1, 0⟩, _, rfl, fun _ _ => .inl rfl, rfl, rfl⟩, rfl⟩, nofun⟩
  have r := r.perform 0 rfl (some ⟨.fail, none⟩) _ ⟨rfl, trivial⟩
  have r := r.perform 1 rfl (some ⟨.fail, none⟩) _ ⟨rfl, trivial⟩
  have r := r.perform 0 rfl (some ()) _ ⟨⟨_, .inl ⟨⟨2, 0⟩, _, rfl, fun _ _ => .inl rfl, rfl, rfl⟩, rfl⟩, nofun⟩
  have r := r.perform 1 rfl (some ()) _ ⟨⟨_, .inl ⟨⟨2, 0⟩, _, rfl, fun _ _ => .inl rfl, rfl, rfl⟩, rfl⟩, nofun⟩
  have r := r.perform 0 rfl () _ ⟨rfl, trivial⟩
  have r := r.perform 0 rfl () _ ⟨rfl, trivial⟩
  have r := r.perform 0 rfl () _ ⟨rfl, trivial⟩
  have r := r.perform 1 rfl () _ ⟨rfl, trivial⟩
  have r := r.perform 1 rfl () _ ⟨rfl, trivial⟩
  have r := r.perform 1 rfl () _ ⟨rfl, trivial⟩
  have r := r.begins 2 _ rfl (.inr rfl)
  have r := r.begins 3 _ rfl (.inr rfl)
  have r := r.perform 2 rfl (some ⟨.proposal, bitlockerOff⟩) _ ⟨⟨[⟨.audit, bitlockerOff⟩], _, rfl, rfl⟩, trivial⟩
  have r := r.perform 3 rfl (some ⟨.proposal, bitlockerOff⟩) _
    ⟨⟨[⟨.audit, bitlockerOff⟩, ⟨.audit, bitlockerOff⟩], _, rfl, rfl⟩, trivial⟩
  have r := r.perform 2 rfl (some none) _ ⟨⟨_, .inl ⟨⟨3, 0⟩, _, rfl, fun _ _ => .inl rfl, rfl, rfl⟩, rfl⟩, nofun⟩
  have r := r.perform 3 rfl (some none) _ ⟨⟨_, .inl ⟨⟨3, 0⟩, _, rfl, fun _ _ => .inl rfl, rfl, rfl⟩, rfl⟩, nofun⟩
  have r := r.perform 2 rfl (some 1) _ ⟨⟨_, .inl ⟨⟨4, 1⟩, _, rfl, fun _ _ => .inl rfl, rfl, rfl⟩, rfl⟩, nofun⟩
  have r := r.perform 3 rfl (some 2) _ ⟨⟨_, .inl ⟨⟨4, 2⟩, _, rfl, fun _ _ => .inl rfl, rfl, rfl⟩, rfl⟩, nofun⟩
  have twice := (recorded encrypted _ r).proposals 1 .bitlocker_c_active 1 2 (bitlockerOff.proposal 4) (bitlockerOff.proposal 4) rfl rfl
  exact absurd (twice (proposal_pendingFor.mpr ⟨rfl, rfl⟩) (proposal_pendingFor.mpr ⟨rfl, rfl⟩)) (by decide)

end Opale.Monitoring
