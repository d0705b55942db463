import Opale.Effects.Queue
import Opale.AgentGo.Json

namespace Opale.AgentGo

open Effects

structure DeploymentResult where
  deploymentId : GoString
  claimToken : GoString
  exitCode : Int
  output : GoString
deriving DecidableEq

structure DetectionResult where
  packageId : GoString
  detected : Bool
deriving DecidableEq

namespace DeploymentResult

/-- json.Marshal, the claim token omitted when empty -/
def marshal (r : DeploymentResult) : GoString :=
  text "\x7b\"deployment_id\":" ++ quote r.deploymentId ++
    (if r.claimToken = [] then [] else text ",\"claim_token\":" ++ quote r.claimToken) ++
    text ",\"exit_code\":" ++ decimal r.exitCode ++ text ",\"output\":" ++ quote r.output ++ text "\x7d"

def reread (r : DeploymentResult) : DeploymentResult :=
  { r with
    deploymentId := AgentGo.reread r.deploymentId
    claimToken := AgentGo.reread r.claimToken
    output := AgentGo.reread r.output }

end DeploymentResult

namespace DetectionResult

def marshal (r : DetectionResult) : GoString :=
  text "\x7b\"package_id\":" ++ quote r.packageId ++ text ",\"detected\":" ++
    text (if r.detected then "true" else "false") ++ text "\x7d"

def reread (r : DetectionResult) : DetectionResult := { r with packageId := AgentGo.reread r.packageId }

end DetectionResult

def maxResultOutputBytes : Nat := 64 * 1024

def maxResultsBatchBytes : Nat := 512 * 1024

def marker : GoString := text "\n[… sortie tronquée …]\n"

/-- The last beginning of a rune that is not after `head`; 0 where there is none. -/
def headBoundary (s : GoString) : Nat → Nat
  | 0 => 0
  | head + 1 => if (s[head + 1]?.map runeStart).getD true then head + 1 else headBoundary s head

def truncateMiddle (s : GoString) (limit : Nat) : GoString :=
  if s.length ≤ limit then s
  else
    let half := (limit - marker.length) / 2
    s.take (headBoundary s half) ++ marker ++ (s.drop (s.length - half)).dropWhile fun b => !runeStart b

def DeploymentResult.truncated (r : DeploymentResult) : DeploymentResult :=
  { r with output := truncateMiddle r.output maxResultOutputBytes }

def batchFrom (out : List DeploymentResult) (size : Nat) : List DeploymentResult → List DeploymentResult
  | [] => out
  | r :: rest =>
    let raw := r.truncated.marshal
    if 0 < out.length ∧ maxResultsBatchBytes < size + raw.length then out
    else batchFrom (out ++ [r.truncated]) (size + raw.length) rest

def pendingDeploymentBatch (pending : List DeploymentResult) : List DeploymentResult := batchFrom [] 0 pending

def pendingDetectionBatch (pending : List DetectionResult) : List DetectionResult := pending

def dropPrefix {α : Type} (s : List α) (n : Nat) : List α := if s.length ≤ n then [] else s.drop n

/-- The results of a check-in. -/
structure CheckinPayload where
  deploymentResults : List DeploymentResult
  detectionResults : List DetectionResult

/-- The queues of the agent and the check-in that has had no answer yet. -/
structure Agent where
  deployments : Queue DeploymentResult := {}
  detections : Queue DetectionResult := {}
  inFlight : Option CheckinPayload := none

inductive Event where
  | deployment (r : DeploymentResult)
  | detection (results : List DetectionResult)
  | checkin
  | accepted
  | failed
  | save
  | crash

def values {α : Type} (entries : List (Entry α)) : List α := entries.map (·.value)

/-- The first `n` of a queue go, whatever came behind them. -/
def acknowledge {α : Type} (queue : Queue α) (n : Nat) : Queue α :=
  { queue with
    memory := dropPrefix queue.memory n
    removed := queue.removed ++ Queue.serials (queue.memory.take n) }

def Agent.ackPendingResults (agent : Agent) (nDep nDet : Nat) : Agent :=
  { agent with
    deployments := acknowledge agent.deployments nDep
    detections := acknowledge agent.detections nDet }

namespace Agent

/-- One check-in at a time; a crash forgets all that is not in state.json. -/
def step (agent : Agent) : Event → Agent
  | .deployment r => { agent with deployments := agent.deployments.enqueue [r.truncated] }
  | .detection results => { agent with detections := agent.detections.enqueue results }
  | .checkin =>
    match agent.inFlight with
    | none =>
      { agent with
        inFlight := some
          ⟨pendingDeploymentBatch (values agent.deployments.memory), pendingDetectionBatch (values agent.detections.memory)⟩ }
    | some _ => agent
  | .accepted =>
    match agent.inFlight with
    | none => agent
    | some payload =>
      { agent.ackPendingResults payload.deploymentResults.length payload.detectionResults.length with inFlight := none }
  | .failed => { agent with inFlight := none }
  | .save =>
    { agent with
      deployments := agent.deployments.save DeploymentResult.reread
      detections := agent.detections.save DetectionResult.reread }
  | .crash => ⟨agent.deployments.reload, agent.detections.reload, none⟩

def run (events : List Event) : Agent := events.foldl step {}

end Agent

def resultsBytes (batch : List DeploymentResult) : Nat := (batch.map fun r => r.marshal.length).sum

/-- A batch takes the first results, at least one, and no more than the budget unless it is one. -/
structure Batch (pending batch : List DeploymentResult) : Prop where
  first : batch <+: pending.map DeploymentResult.truncated
  nonempty : pending ≠ [] → batch ≠ []
  budget : batch.length = 1 ∨ resultsBytes batch ≤ maxResultsBatchBytes

/-- The entries at the head of a queue whose values were sent. -/
structure Head {α : Type} (send : α → α) (queue : Queue α) (sent : List α) : Prop where
  within : sent.length ≤ queue.memory.length
  sends : (queue.memory.take sent.length).map (fun e => send e.value) = sent

/-- What a check-in sends, when none is under way. -/
def Agent.Batched (agent : Agent) : Prop :=
  agent.inFlight = none → ∃ payload, (agent.step .checkin).inFlight = some payload ∧
    Batch (values agent.deployments.memory) payload.deploymentResults ∧
    payload.detectionResults = values agent.detections.memory

/-- Once accepted, the results of the check-in that has had no answer yet go, and they alone. -/
def Agent.Acknowledged (agent : Agent) : Prop :=
  ∀ payload, agent.inFlight = some payload →
    ∃ deployments later detections behind,
      agent.deployments.memory = deployments ++ later ∧
      agent.detections.memory = detections ++ behind ∧
      payload.deploymentResults = deployments.map (fun e => e.value.truncated) ∧
      payload.detectionResults = values detections ∧
      (agent.step .accepted).deployments.memory = later ∧
      (agent.step .accepted).detections.memory = behind ∧
      (agent.step .accepted).deployments.removed = agent.deployments.removed ++ Queue.serials deployments ∧
      (agent.step .accepted).detections.removed = agent.detections.removed ++ Queue.serials detections

/-- Nothing saved is lost, batches follow the queue, an answer takes away what it answers. -/
structure Agent.Reliable (agent : Agent) : Prop where
  deployments : agent.deployments.Kept DeploymentResult.reread
  detections : agent.detections.Kept DetectionResult.reread
  batched : agent.Batched
  acknowledged : agent.Acknowledged

section Truncate

variable {s : GoString} {limit : Nat}

theorem truncated_of_short {r : DeploymentResult} (short : r.output.length ≤ maxResultOutputBytes) : r.truncated = r := by
  unfold DeploymentResult.truncated truncateMiddle
  rw [if_pos short]

end Truncate

section Batches

variable {out pending : List DeploymentResult} {size : Nat}

theorem resultsBytes_concat (r : DeploymentResult) : resultsBytes (out ++ [r]) = resultsBytes out + r.marshal.length := by
  simp [resultsBytes]

theorem batchFrom_first : ∃ sent, batchFrom out size pending = out ++ sent ∧ sent <+: pending.map DeploymentResult.truncated := by
  induction pending generalizing out size with
  | nil => exact ⟨[], (List.append_nil out).symm, List.nil_prefix⟩
  | cons r rest ih =>
    simp only [batchFrom]
    split
    · exact ⟨[], (List.append_nil out).symm, List.nil_prefix⟩
    · obtain ⟨sent, same, first⟩ := @ih (out ++ [r.truncated]) (size + r.truncated.marshal.length)
      refine ⟨r.truncated :: sent, ?_, (List.prefix_cons_inj _).mpr first⟩
      rw [same, List.append_assoc]
      rfl

theorem batchFrom_budget (counted : size = resultsBytes out) (budget : out.length ≤ 1 ∨ size ≤ maxResultsBatchBytes) :
    (batchFrom out size pending).length ≤ 1 ∨ resultsBytes (batchFrom out size pending) ≤ maxResultsBatchBytes := by
  induction pending generalizing out size with
  | nil => exact counted ▸ budget
  | cons r rest ih =>
    simp only [batchFrom]
    split
    · exact counted ▸ budget
    · next fits =>
      refine ih (by rw [resultsBytes_concat, counted]) ?_
      rw [List.length_append, List.length_singleton]
      omega

theorem batch_pendingDeploymentBatch : Batch pending (pendingDeploymentBatch pending) where
  first := by
    obtain ⟨sent, same, first⟩ := @batchFrom_first [] pending 0
    unfold pendingDeploymentBatch
    rwa [same]
  nonempty some := by
    cases pending with
    | nil => exact absurd rfl some
    | cons r rest =>
      obtain ⟨sent, same, -⟩ := @batchFrom_first ([] ++ [r.truncated]) rest (0 + r.truncated.marshal.length)
      unfold pendingDeploymentBatch
      simp only [batchFrom, List.length_nil, Nat.lt_irrefl, false_and, if_false]
      rw [same]
      simp
  budget := by
    have budget := @batchFrom_budget [] pending 0 rfl (Or.inl (Nat.zero_le 1))
    unfold pendingDeploymentBatch
    rcases budget with few | fits
    · rcases Nat.lt_or_eq_of_le few with none | one
      · have empty := List.length_eq_zero_iff.mp (Nat.lt_one_iff.mp none)
        rw [empty]
        exact Or.inr (Nat.zero_le _)
      · exact Or.inl one
    · exact Or.inr fits

end Batches

section Heads

variable {α : Type} {send : α → α} {queue : Queue α} {sent : List α}

theorem dropPrefix_eq_drop (s : List α) (n : Nat) : dropPrefix s n = s.drop n := by
  unfold dropPrefix
  split
  · next all => rw [List.drop_eq_nil_of_le all]
  · rfl

theorem acknowledge_eq_remove (n : Nat) : acknowledge queue n = queue.remove n := by
  unfold acknowledge Queue.remove
  rw [dropPrefix_eq_drop]

theorem Head.of_prefix (first : sent <+: (values queue.memory).map send) : Head send queue sent where
  within := by
    have short := first.length_le
    unfold values at short
    rwa [List.length_map, List.length_map] at short
  sends := by
    have same := List.prefix_iff_eq_take.mp first
    unfold values at same
    rw [List.map_map, ← List.map_take] at same
    exact same.symm

theorem Head.enqueue (head : Head send queue sent) (more : List α) : Head send (queue.enqueue more) sent where
  within := Nat.le_trans head.within (by simp [Queue.enqueue])
  sends := by
    show (List.take sent.length (queue.memory ++ _)).map _ = sent
    rw [List.take_append_of_le_length head.within]
    exact head.sends

theorem Head.save (head : Head send queue sent) (store : α → α) : Head send (queue.save store) sent :=
  ⟨head.within, head.sends⟩

end Heads

namespace Agent

variable {agent : Agent} {event : Event}

/-- The check-in that has had no answer yet holds what stands first in the queues. -/
def Heads (agent : Agent) : Prop :=
  ∀ payload, agent.inFlight = some payload →
    Head DeploymentResult.truncated agent.deployments payload.deploymentResults ∧
    Head id agent.detections payload.detectionResults

structure Invariant (agent : Agent) : Prop where
  deployments : agent.deployments.Kept DeploymentResult.reread
  detections : agent.detections.Kept DetectionResult.reread
  heads : agent.Heads

theorem ackPendingResults_eq (nDep nDet : Nat) :
    agent.ackPendingResults nDep nDet =
      { agent with deployments := agent.deployments.remove nDep, detections := agent.detections.remove nDet } := by
  unfold ackPendingResults
  rw [acknowledge_eq_remove, acknowledge_eq_remove]

theorem step_accepted {payload : CheckinPayload} (sent : agent.inFlight = some payload) :
    agent.step .accepted =
      ⟨agent.deployments.remove payload.deploymentResults.length, agent.detections.remove payload.detectionResults.length, none⟩ := by
  simp only [step, sent, ackPendingResults_eq]

theorem step_checkin (idle : agent.inFlight = none) :
    agent.step .checkin =
      { agent with
        inFlight := some
          ⟨pendingDeploymentBatch (values agent.deployments.memory), pendingDetectionBatch (values agent.detections.memory)⟩ } := by
  simp only [step, idle]

theorem Invariant.step (invariant : agent.Invariant) : (agent.step event).Invariant := by
  obtain ⟨deployments, detections, heads⟩ := invariant
  cases event with
  | deployment r =>
    refine ⟨deployments.enqueue, detections, fun payload sent => ?_⟩
    obtain ⟨first, second⟩ := heads payload sent
    exact ⟨first.enqueue _, second⟩
  | detection results =>
    refine ⟨deployments, detections.enqueue, fun payload sent => ?_⟩
    obtain ⟨first, second⟩ := heads payload sent
    exact ⟨first, second.enqueue _⟩
  | checkin =>
    cases idle : agent.inFlight with
    | none =>
      rw [step_checkin idle]
      refine ⟨deployments, detections, fun payload sent => ?_⟩
      cases sent
      have all : pendingDetectionBatch (values agent.detections.memory) <+: (values agent.detections.memory).map id := by
        rw [List.map_id]
        exact List.prefix_rfl
      exact ⟨Head.of_prefix batch_pendingDeploymentBatch.first, Head.of_prefix all⟩
    | some payload =>
      have busy : agent.step .checkin = agent := by simp only [Agent.step, idle]
      rw [busy]
      exact ⟨deployments, detections, heads⟩
  | accepted =>
    cases sent : agent.inFlight with
    | none =>
      have idle : agent.step .accepted = agent := by simp only [Agent.step, sent]
      rw [idle]
      exact ⟨deployments, detections, heads⟩
    | some payload =>
      rw [step_accepted sent]
      exact ⟨deployments.remove, detections.remove, fun _ => nofun⟩
  | failed => exact ⟨deployments, detections, fun _ => nofun⟩
  | save =>
    refine ⟨deployments.save, detections.save, fun payload sent => ?_⟩
    obtain ⟨first, second⟩ := heads payload sent
    exact ⟨first.save _, second.save _⟩
  | crash => exact ⟨deployments.reload, detections.reload, fun _ => nofun⟩

theorem invariant_run (events : List Event) : (run events).Invariant := by
  have start : (({} : Agent)).Invariant := ⟨Queue.kept_empty, Queue.kept_empty, fun _ => nofun⟩
  unfold run
  generalize ({} : Agent) = agent at start ⊢
  induction events generalizing agent with
  | nil => exact start
  | cons event rest ih => exact ih _ start.step

theorem Heads.acknowledged (heads : agent.Heads) : agent.Acknowledged := by
  intro payload sent
  obtain ⟨first, second⟩ := heads payload sent
  rw [step_accepted sent]
  refine ⟨_, _, _, _, (List.take_append_drop _ _).symm, (List.take_append_drop _ _).symm, first.sends.symm,
    second.sends.symm, rfl, rfl, rfl, rfl⟩

theorem batched : agent.Batched := fun idle =>
  ⟨_, by rw [step_checkin idle], batch_pendingDeploymentBatch, rfl⟩

/-- Whatever comes, in any order. -/
theorem reliable (events : List Event) : (run events).Reliable :=
  have invariant := invariant_run events
  ⟨invariant.deployments, invariant.detections, batched, invariant.heads.acknowledged⟩

end Agent

/-- An output that makes a result of 64 KiB. -/
def filled : DeploymentResult := ⟨text "d", [], 0, List.replicate 65489 0x61⟩

def installed : DetectionResult := ⟨text "p", true⟩

theorem length_marshal_filled : filled.marshal.length = 65536 := by
  have output : (quote filled.output).length = 65489 + 2 := length_quote_replicate _ (by decide) (by decide)
  have names : (text "\x7b\"deployment_id\":").length = 17 ∧ (text ",\"exit_code\":").length = 13 ∧
      (text ",\"output\":").length = 10 ∧ (text "\x7d").length = 1 := by decide
  have id : (quote filled.deploymentId).length = 3 := by decide
  have code : (decimal filled.exitCode).length = 1 := by decide
  obtain ⟨first, second, third, last⟩ := names
  simp only [DeploymentResult.marshal, List.length_append, output, first, second, third, last, id, code]
  rfl

theorem truncated_filled : filled.truncated = filled := truncated_of_short (by
  show (List.replicate 65489 _).length ≤ _
  rw [List.length_replicate]
  decide)

theorem batch_filled : pendingDeploymentBatch (List.replicate 8 filled) = List.replicate 8 filled := by
  simp only [pendingDeploymentBatch, List.replicate, batchFrom, truncated_filled, length_marshal_filled]
  rfl

theorem length_marshal_installed : installed.marshal.length = 34 := by decide

/-- What eight results of one kind and some detections of another leave in flight. -/
theorem inFlight_replicate {result : DeploymentResult} {detection : DetectionResult} (short : result.truncated = result)
    (batch : pendingDeploymentBatch (List.replicate 8 result) = List.replicate 8 result) (count : Nat) :
    (Agent.run (List.replicate 8 (.deployment result) ++ [.detection (List.replicate count detection), .checkin])).inFlight =
      some ⟨List.replicate 8 result, List.replicate count detection⟩ := by
  have sent : (Agent.run (List.replicate 8 (.deployment result) ++
        [.detection (List.replicate count detection), .checkin])).inFlight =
      some ⟨pendingDeploymentBatch (List.replicate 8 result.truncated),
        pendingDetectionBatch (values (Queue.numbered 0 (List.replicate count detection)))⟩ := rfl
  have detections : values (Queue.numbered 0 (List.replicate count detection)) = List.replicate count detection :=
    Queue.values_numbered
  rw [sent, short, batch, detections]
  rfl

theorem length_marshalSlice_replicate {α : Type} (marshal : α → List UInt8) (count : Nat) (value : α) :
    (marshalSlice marshal (List.replicate count value)).length = count * (marshal value).length + (count - 1) + 2 := by
  rw [length_marshalSlice, List.map_replicate, List.sum_replicate_nat, List.length_replicate]

/-- Eight results that fill the budget, the commas between them beyond it, and as many detections
as one likes. -/
theorem batch_above_budget :
    ∃ payload,
      (Agent.run (List.replicate 8 (.deployment filled) ++ [.detection (List.replicate 20000 installed), .checkin])).inFlight =
        some payload ∧
      payload.deploymentResults.length = 8 ∧
      maxResultsBatchBytes < (marshalSlice DeploymentResult.marshal payload.deploymentResults).length ∧
      payload.detectionResults.length = 20000 ∧
      maxResultsBatchBytes < (marshalSlice DetectionResult.marshal payload.detectionResults).length := by
  refine ⟨_, inFlight_replicate truncated_filled batch_filled 20000, List.length_replicate, ?_, List.length_replicate, ?_⟩
  · rw [length_marshalSlice_replicate, length_marshal_filled]
    decide
  · rw [length_marshalSlice_replicate, length_marshal_installed]
    decide

end Opale.AgentGo
