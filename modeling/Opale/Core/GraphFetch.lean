import Opale.Effects.Meanwhile
import Opale.Js.Spaces
import Mathlib.Algebra.Order.Ring.Int

namespace Opale.Core

open Program

/-- A response of Graph: its status, its Retry-After header and what the rest of the code reads of it. -/
structure GraphResponse (Body : Type) where
  status : Nat
  retryAfter : Option (List Char)
  body : Body

def GraphResponse.ok {Body : Type} (res : GraphResponse Body) : Bool := 200 ≤ res.status && res.status ≤ 299

/-- `graphFetchDefaults`, with the options of the call. -/
structure FetchOptions where
  timeoutMs : Nat
  maxRetries : Nat
  maxRetryAfterMs : Nat

def graphFetchDefaults : FetchOptions := ⟨30000, 3, 30000⟩

/-- What `graphFetch` throws. -/
inductive FetchError where
  | noResponse (timeoutMs : Nat)
  | network (message : List Char)
  /-- The error with the code GRAPH_RETRY_ABORTED. -/
  | retryAborted
  | sleep (message : List Char)
  deriving DecidableEq

def FetchError.message : FetchError → List Char
  | .noResponse timeoutMs => "Graph : pas de réponse en ".toList ++ (toString timeoutMs).toList ++ " ms".toList
  | .network message => message
  | .retryAborted => "Graph : reprise après 429 interrompue (arrêt en cours), requête non traitée par Graph".toList
  | .sleep message => message

/-- What `fetch` throws, and whether it is for the timeout. -/
structure FetchFailure where
  timeout : Bool
  message : List Char

/-- The operations of a call. A sleep that is cut short gives its error. -/
inductive FetchOp (Request : Type) where
  | fetch (request : Request)
  | now
  | stopAborted
  | cancelBody
  | sleep (ms : Nat)

abbrev FetchOp.Res {Request : Type} (Body : Type) : FetchOp Request → Type
  | .fetch _ => Except FetchFailure (GraphResponse Body)
  | .now => Int
  | .stopAborted => Bool
  | .cancelBody => Unit
  | .sleep _ => Option (List Char)

section

variable {Request Body : Type}

abbrev Fetching (Request Body α : Type) := Program (FetchOp.Res Body : FetchOp Request → Type) α

def fetchImpl (request : Request) : Fetching Request Body (Except FetchFailure (GraphResponse Body)) := perform (FetchOp.fetch request)

def stopAborted : Fetching Request Body Bool := perform FetchOp.stopAborted

def sleepFor (ms : Nat) : Fetching Request Body (Option (List Char)) := perform (FetchOp.sleep ms)

def cancelBody : Fetching Request Body Unit := perform FetchOp.cancelBody

def dateNow : Fetching Request Body Int := perform FetchOp.now

def isDigits (v : List Char) : Bool := v ≠ [] && v.all Char.isDigit

def parseInt (v : List Char) : Nat := v.foldl (fun n c => 10 * n + (c.toNat - '0'.toNat)) 0

/-- `parseDate` is `Date.parse`, without value where it gives NaN. -/
def retryAfterMs (parseDate : List Char → Option Int) (header : Option (List Char)) (attempt : Nat) (now : Int) : Nat :=
  let v := Js.trim (header.getD [])
  if isDigits v then parseInt v * 1000
  else
    match if v = [] then none else parseDate v with
    | some at_ => (at_ - now).toNat
    | none => 1000 * 2 ^ attempt

/-- Why there is no further attempt after the wait, which may have failed. -/
def awake (failed : Option FetchError) : Fetching Request Body (Option FetchError) := do
  if ← stopAborted then return some .retryAborted else return failed

def wait (waitMs : Nat) : Fetching Request Body (Option FetchError) := do
  if ← stopAborted then return some .retryAborted
  else do
    cancelBody
    let failed ← sleepFor waitMs
    awake (failed.map .sleep)

/-- One attempt; `retry` is what a 429 leads to. -/
def attempt (opts : FetchOptions) (request : Request)
    (retry : GraphResponse Body → Fetching Request Body (Except FetchError (GraphResponse Body))) :
    Fetching Request Body (Except FetchError (GraphResponse Body)) := do
  match ← fetchImpl request with
  | .error err => return .error (if err.timeout then .noResponse opts.timeoutMs else .network err.message)
  | .ok res => if res.status ≠ 429 then return .ok res else retry res

/-- The loop of `graphFetch`, with the retries that are left. -/
def attempts (parseDate : List Char → Option Int) (opts : FetchOptions) (request : Request) :
    Nat → Fetching Request Body (Except FetchError (GraphResponse Body))
  | 0 => attempt opts request fun res => return .ok res
  | left + 1 => attempt opts request fun res => do
    let waitMs := retryAfterMs parseDate res.retryAfter (opts.maxRetries - (left + 1)) (← dateNow)
    if waitMs > opts.maxRetryAfterMs then return .ok res
    else
      match ← wait waitMs with
      | some why => return .error why
      | none => attempts parseDate opts request left

def graphFetch (parseDate : List Char → Option Int) (opts : FetchOptions) (request : Request) :
    Fetching Request Body (Except FetchError (GraphResponse Body)) := attempts parseDate opts request opts.maxRetries

/-- What Graph has done with the requests of one caller, and what these have cost. -/
structure GraphWorld (Request : Type) where
  processed : List Request
  fetches : Nat
  slept : Nat
  stopped : Bool

/-- What an operation may answer and do. A 429 is given to a request that has not been processed, a success to one that has;
of any other answer, and of none, nothing is known. -/
inductive fetchExec : (o : FetchOp Request) → GraphWorld Request → o.Res Body → GraphWorld Request → Prop
  | throttled {request w res} : res.status = 429 → fetchExec (.fetch request) w (.ok res) { w with fetches := w.fetches + 1 }
  | processed {request w res} : res.status ≠ 429 → fetchExec (.fetch request) w (.ok res)
      { w with fetches := w.fetches + 1, processed := w.processed ++ [request] }
  | refused {request w res} : res.status ≠ 429 → res.ok = false → fetchExec (.fetch request) w (.ok res) { w with fetches := w.fetches + 1 }
  | lost {request w err} : fetchExec (.fetch request) w (.error err)
      { w with fetches := w.fetches + 1, processed := w.processed ++ [request] }
  | unsent {request w err} : fetchExec (.fetch request) w (.error err) { w with fetches := w.fetches + 1 }
  | now {w now} : fetchExec .now w now w
  | stopAborted {w} : fetchExec .stopAborted w w.stopped w
  | cancelBody {w} : fetchExec .cancelBody w () w
  | slept {ms w} : fetchExec (.sleep ms) w none { w with slept := w.slept + ms }
  | woken {ms part w message} : part ≤ ms → fetchExec (.sleep ms) w (some message) { w with slept := w.slept + part }

/-- The stop of the API may be asked for at any time. -/
def Stopping (w w₁ : GraphWorld Request) : Prop := ∃ stopped, (w.stopped = true → stopped = true) ∧ w₁ = { w with stopped := stopped }

theorem Stopping.refl (w : GraphWorld Request) : Stopping w w := ⟨w.stopped, id, rfl⟩

theorem Stopping.trans {a b c : GraphWorld Request} (first : Stopping a b) (second : Stopping b c) : Stopping a c := by
  obtain ⟨s, keeps, rfl⟩ := first
  obtain ⟨s₁, keeps₁, rfl⟩ := second
  exact ⟨s₁, fun was => keeps₁ (keeps was), rfl⟩

def fetchRules (Request Body : Type) : Rules (FetchOp.Res Body : FetchOp Request → Type) (GraphWorld Request) where
  exec := fetchExec
  inv _ := True
  rely := Stopping
  guarantee _ _ _ _ := True
  rely_refl := Stopping.refl
  rely_trans := Stopping.trans

/-- What a call of `graphFetch` has done since `w₀`, with the retries that it has been given. -/
structure Fetched (parseDate : List Char → Option Int) (opts : FetchOptions) (request : Request) (retries : Nat) (w₀ : GraphWorld Request)
    (result : Except FetchError (GraphResponse Body)) (w : GraphWorld Request) : Prop where
  once : w.processed = w₀.processed ∨ w.processed = w₀.processed ++ [request]
  ok : ∀ res, result = .ok res → res.ok = true → w.processed = w₀.processed ++ [request]
  throttled : ∀ res, result = .ok res → res.status = 429 → w.processed = w₀.processed
  aborted : result = .error .retryAborted → w.processed = w₀.processed ∧ w.stopped = true
  fetches : w.fetches ≤ w₀.fetches + retries + 1
  slept : w.slept ≤ w₀.slept + retries * opts.maxRetryAfterMs

variable {parseDate : List Char → Option Int} {opts : FetchOptions} {request : Request} {retries : Nat} {w₀ w w₁ : GraphWorld Request}

/-- Nothing has been processed in the first `used` attempts, each with its wait. -/
structure Unprocessed (opts : FetchOptions) (w₀ : GraphWorld Request) (fetched waited : Nat) (w : GraphWorld Request) : Prop where
  processed : w.processed = w₀.processed
  fetches : w.fetches ≤ w₀.fetches + fetched
  slept : w.slept ≤ w₀.slept + waited * opts.maxRetryAfterMs

theorem Unprocessed.stopping {fetched waited : Nat} (before : Unprocessed opts w₀ fetched waited w) (moves : Stopping w w₁) :
    Unprocessed opts w₀ fetched waited w₁ := by
  obtain ⟨stopped, -, rfl⟩ := moves
  exact ⟨before.processed, before.fetches, before.slept⟩

theorem Fetched.stopping {result : Except FetchError (GraphResponse Body)} (done : Fetched parseDate opts request retries w₀ result w)
    (moves : Stopping w w₁) : Fetched parseDate opts request retries w₀ result w₁ := by
  obtain ⟨stopped, keeps, rfl⟩ := moves
  exact ⟨done.once, done.ok, done.throttled, fun is => ⟨(done.aborted is).1, keeps (done.aborted is).2⟩, done.fetches, done.slept⟩

abbrev FetchSafe {α : Type} (post : α → GraphWorld Request → Prop) (program : Fetching Request Body α) (w : GraphWorld Request) : Prop :=
  (fetchRules Request Body).Safe post program w

/-- The call ends without the request having been processed. -/
theorem Unprocessed.fetched {fetched waited : Nat} {result : Except FetchError (GraphResponse Body)}
    (before : Unprocessed opts w₀ fetched waited w) (few : fetched ≤ retries + 1) (short : waited ≤ retries)
    (failed : ∀ res, result = .ok res → res.ok = false) (aborted : result = .error .retryAborted → w.stopped = true) :
    Fetched parseDate opts request retries w₀ result w := by
  have waits := Nat.mul_le_mul_right opts.maxRetryAfterMs short
  have fetches := before.fetches
  have slept := before.slept
  refine ⟨.inl before.processed, fun res is fine => ?_, fun _ _ _ => before.processed, fun is => ⟨before.processed, aborted is⟩, by omega, by omega⟩
  cases (failed res is).symm.trans fine

theorem attempt_safe {used : Nat} {retry : GraphResponse Body → Fetching Request Body (Except FetchError (GraphResponse Body))}
    (before : Unprocessed opts w₀ used used w) (few : used ≤ retries)
    (again : ∀ res w, res.status = 429 → Unprocessed opts w₀ (used + 1) used w →
      FetchSafe (Fetched parseDate opts request retries w₀) (retry res) w) :
    FetchSafe (Fetched parseDate opts request retries w₀) (attempt opts request retry) w := by
  intro w₁ moves _ answer w₂ exec
  have before := before.stopping moves
  have fetches := before.fetches
  have waits := Nat.mul_le_mul_right opts.maxRetryAfterMs few
  have slept := before.slept
  refine ⟨trivial, trivial, ?_⟩
  have tried : Unprocessed opts w₀ (used + 1) used { w₁ with fetches := w₁.fetches + 1 } := ⟨before.processed, Nat.succ_le_succ fetches, slept⟩
  have processed {result : Except FetchError (GraphResponse Body)} (answered : ∀ res, result = .ok res → res.status ≠ 429)
      (notAborted : result ≠ .error .retryAborted) :
      Fetched parseDate opts request retries w₀ result { w₁ with fetches := w₁.fetches + 1, processed := w₁.processed ++ [request] } := by
    have appended : w₁.processed ++ [request] = w₀.processed ++ [request] := by rw [before.processed]
    exact ⟨.inr appended, fun _ _ _ => appended, fun res is throttled => absurd throttled (answered res is), fun is => absurd is notAborted,
      by dsimp only; omega, by dsimp only; omega⟩
  have failing (err : FetchFailure) : (if err.timeout then FetchError.noResponse opts.timeoutMs else .network err.message) ≠ .retryAborted := by
    split
    · intro is
      cases is
    · intro is
      cases is
  cases exec with
  | @throttled _ _ res throttled =>
    change FetchSafe _ (if res.status ≠ 429 then _ else retry res) _
    rw [if_neg fun other => other throttled]
    exact again res _ throttled tried
  | @processed _ _ res other =>
    change FetchSafe _ (if res.status ≠ 429 then _ else retry res) _
    rw [if_pos other]
    exact fun w₂ moves _ => (processed (fun r is => by cases is; exact other) (by intro is; cases is)).stopping moves
  | @refused _ _ res other failed =>
    change FetchSafe _ (if res.status ≠ 429 then _ else retry res) _
    rw [if_pos other]
    exact fun w₂ moves _ => (tried.fetched (by omega) few (fun r is => by cases is; exact failed) (by intro is; cases is)).stopping moves
  | @lost _ _ err =>
    exact fun w₂ moves _ => (processed (fun r is => by cases is) fun is => failing err (Except.error.inj is)).stopping moves
  | @unsent _ _ err =>
    exact fun w₂ moves _ => (tried.fetched (by omega) few (fun r is => by cases is) fun is => absurd (Except.error.inj is) (failing err)).stopping moves

/-- What a wait leaves: its time has been added, and where it says so, the stop has been asked for. -/
def Waited (opts : FetchOptions) (w₀ : GraphWorld Request) (used : Nat) (why : Option FetchError) (w : GraphWorld Request) : Prop :=
  Unprocessed opts w₀ used used w ∧ (why = some .retryAborted → w.stopped = true)

theorem Waited.stopping {used : Nat} {why : Option FetchError} (waited : Waited opts w₀ used why w) (moves : Stopping w w₁) :
    Waited opts w₀ used why w₁ := by
  refine ⟨waited.1.stopping moves, fun is => ?_⟩
  obtain ⟨stopped, keeps, rfl⟩ := moves
  exact keeps (waited.2 is)

theorem awake_safe {used : Nat} {failed : Option FetchError} (before : Unprocessed opts w₀ used used w) (other : failed ≠ some .retryAborted) :
    FetchSafe (Waited opts w₀ used) (awake failed : Fetching Request Body (Option FetchError)) w := by
  intro w₁ moves _ answer w₂ exec
  refine ⟨trivial, trivial, ?_⟩
  cases exec with
  | stopAborted =>
    have before := before.stopping moves
    cases stopped : w₁.stopped with
    | true => exact fun w₂ moves _ => Waited.stopping ⟨before, fun _ => stopped⟩ moves
    | false => exact fun w₂ moves _ => Waited.stopping ⟨before, fun is => absurd is other⟩ moves

theorem wait_safe {used waitMs : Nat} (before : Unprocessed opts w₀ (used + 1) used w) (short : waitMs ≤ opts.maxRetryAfterMs) :
    FetchSafe (Waited opts w₀ (used + 1)) (wait waitMs : Fetching Request Body (Option FetchError)) w := by
  have later : used * opts.maxRetryAfterMs + opts.maxRetryAfterMs = (used + 1) * opts.maxRetryAfterMs := (Nat.succ_mul ..).symm
  intro w₁ moves _ answer w₂ exec
  refine ⟨trivial, trivial, ?_⟩
  have before := before.stopping moves
  cases exec with
  | stopAborted =>
    cases stopped : w₁.stopped with
    | true =>
      have slept := before.slept
      exact fun w₂ moves _ => Waited.stopping ⟨⟨before.processed, before.fetches, by omega⟩, fun _ => stopped⟩ moves
    | false =>
      intro w₂ moves _ answer w₃ exec
      refine ⟨trivial, trivial, ?_⟩
      cases exec with
      | cancelBody =>
        have before := before.stopping moves
        intro w₃ moves _ answer w₄ exec
        refine ⟨trivial, trivial, ?_⟩
        have before := before.stopping moves
        have slept := before.slept
        cases exec with
        | slept => exact awake_safe ⟨before.processed, before.fetches, by dsimp only; omega⟩ fun is => by cases is
        | woken partly => exact awake_safe ⟨before.processed, before.fetches, by dsimp only; omega⟩ fun is => by cases is

theorem attempts_safe {used left : Nat} (all : used + left = retries) (before : Unprocessed opts w₀ used used w) :
    FetchSafe (Fetched parseDate opts request retries w₀)
      (attempts parseDate opts request left : Fetching Request Body (Except FetchError (GraphResponse Body))) w := by
  induction left generalizing used w with
  | zero =>
    refine attempt_safe before (by omega) fun res w throttled after => ?_
    have failed : res.ok = false := by
      unfold GraphResponse.ok
      rw [throttled]
      decide
    exact fun w₁ moves _ => (after.fetched (by omega) (by omega) (fun r is => by cases is; exact failed) (by intro is; cases is)).stopping moves
  | succ left ih =>
    refine attempt_safe before (by omega) fun res w throttled after => ?_
    have failed : res.ok = false := by
      unfold GraphResponse.ok
      rw [throttled]
      decide
    intro w₁ moves _ now w₂ exec
    refine ⟨trivial, trivial, ?_⟩
    cases exec
    have after := after.stopping moves
    dsimp only [Program.ret_bind]
    split
    · exact fun w₂ moves _ => (after.fetched (by omega) (by omega) (fun r is => by cases is; exact failed) (by intro is; cases is)).stopping moves
    · next short =>
      refine Rules.Safe.bind (wait_safe after (Nat.le_of_not_gt short)) trivial fun why w _ ended => ?_
      cases why with
      | some why =>
        exact fun w₁ moves _ => (ended.1.fetched (by omega) (by omega) (fun r is => by cases is) fun is =>
          ended.2 (congrArg some (Except.error.inj is))).stopping moves
      | none => exact ih (by omega) ended.1

/-- Whatever Graph and the network answer, a call has its request processed at most once: once if it returns a success, never if it
returns a 429 or gives up for the stop of the API. It makes one request more than it has retries, and waits no longer than allowed. -/
theorem graphFetch_once {result : Except FetchError (GraphResponse Body)}
    (ends : Rules.Ends (Rules.meanwhile Stopping fetchExec) (graphFetch parseDate opts request) w result w₁) :
    Fetched parseDate opts request opts.maxRetries w result w₁ := by
  have before : Unprocessed opts w 0 0 w := ⟨rfl, le_rfl, Nat.le_add_right ..⟩
  have safe : FetchSafe (Fetched parseDate opts request opts.maxRetries w)
      (graphFetch parseDate opts request : Fetching Request Body (Except FetchError (GraphResponse Body))) w := attempts_safe (Nat.zero_add _) before
  exact (safe.ends_meanwhile trivial (fun _ _ _ => id) ends).2

end

/-- Graph asks to wait for two seconds, and accepts the request then. -/
theorem graphFetch_once_throttled : Fetched (fun _ => none) graphFetchDefaults "sendMail" 3 ⟨[], 0, 0, false⟩
    (.ok ⟨202, none, ()⟩) ⟨["sendMail"], 2, 2000, false⟩ := by
  refine graphFetch_once ?_
  refine .perform (.ok ⟨429, some ['2'], ()⟩) _ ⟨_, Stopping.refl _, .throttled rfl⟩ ?_
  refine .perform 0 _ ⟨_, Stopping.refl _, .now⟩ ?_
  refine .perform false _ ⟨_, Stopping.refl _, .stopAborted⟩ ?_
  refine .perform () _ ⟨_, Stopping.refl _, .cancelBody⟩ ?_
  refine .perform none _ ⟨_, Stopping.refl _, .slept⟩ ?_
  refine .perform false _ ⟨_, Stopping.refl _, .stopAborted⟩ ?_
  refine .perform (.ok ⟨202, none, ()⟩) _ ⟨_, Stopping.refl _, .processed (by decide)⟩ ?_
  exact .ret

end Opale.Core
