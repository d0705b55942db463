import Opale.Core.GraphFetch
import Opale.EmailBridge.Outbox

namespace Opale.EmailBridge.GraphSend

open Opale.Core

/-- What a response carries besides its status: its text, if it can be read, and the draft that it describes, if it does. -/
structure Draft where
  id : String
  content : List Char
  deriving DecidableEq

structure GraphBody where
  text : Option (List Char)
  json : Except (List Char) Draft

inductive GraphRequest where
  | sendMail (sender to_ subject : String) (content : List Char)
  | createReply (mailbox graphMessageId : String)
  | patch (mailbox draft : String) (content : List Char)
  | sendDraft (mailbox draft : String)
  deriving DecidableEq

abbrev Sending := Fetching GraphRequest GraphBody

def escChar : Char → List Char
  | '&' => "&amp;".toList
  | '<' => "&lt;".toList
  | '>' => "&gt;".toList
  | '"' => "&quot;".toList
  | c => [c]

def escHtml (s : List Char) : List Char := s.flatMap escChar

/-- `split(/\n\x7b2,\x7d/)`, after `newlines` line feeds that may be the separator; `current` is the paragraph so far, reversed. -/
def splitParagraphs (current : List Char) (newlines : Nat) : List Char → List (List Char)
  | [] => if 2 ≤ newlines then [current.reverse, []] else [current.reverse ++ List.replicate newlines '\n']
  | '\n' :: rest => splitParagraphs current (newlines + 1) rest
  | c :: rest =>
    if 2 ≤ newlines then current.reverse :: splitParagraphs [c] 0 rest
    else splitParagraphs (c :: (List.replicate newlines '\n' ++ current)) 0 rest

def paragraph (p : List Char) : List Char :=
  "<p>".toList ++ (escHtml p).flatMap (fun c => if c = '\n' then "<br>".toList else [c]) ++ "</p>".toList

def textToHtml (text : List Char) : List Char := (splitParagraphs [] 0 text).flatMap paragraph

example : textToHtml "a\nb\n\n\n<c>".toList = "<p>a<br>b</p><p>&lt;c&gt;</p>".toList := by decide

def snippet (res : GraphResponse GraphBody) : List Char :=
  match res.body.text.getD [] with
  | [] => []
  | body => " — ".toList ++ body.take 300

def graphError (err : FetchError) : GraphError := ⟨err.message, err = .retryAborted⟩

def thrown (message : List Char) : GraphError := ⟨message, false⟩

def hint (status : Nat) : List Char :=
  if status = 401 then " (token invalide ?)".toList
  else if status = 403 then " (perm Mail.Send consentie ?)".toList
  else if status = 404 then " (mailbox sender inconnue ?)".toList
  else []

/-- One request; `message` is that of the error for another answer than a success. -/
def succeed (parseDate : List Char → Option Int) (message : GraphResponse GraphBody → List Char) (request : GraphRequest) :
    Sending (Except GraphError (GraphResponse GraphBody)) := do
  match ← graphFetch parseDate graphFetchDefaults request with
  | .error err => return .error (graphError err)
  | .ok res => if res.ok then return .ok res else return .error (thrown (message res))

/-- `token` is what `getAppToken` gives. -/
def sendMail (parseDate : List Char → Option Int) (token : Except GraphError String) (sender to_ subject : String) (bodyText : List Char) :
    Sending (Except GraphError Unit) := do
  if sender = "" then return .error (thrown "sendMail: sender manquant".toList)
  else if to_ = "" then return .error (thrown "sendMail: to manquant".toList)
  else
    match token with
    | .error err => return .error err
    | .ok _ =>
      let subject := if subject = "" then "(sans sujet)" else subject
      let fail res := "Graph sendMail: ".toList ++ (toString res.status).toList ++ hint res.status ++ snippet res
      match ← succeed parseDate fail (.sendMail sender to_ subject (textToHtml bodyText)) with
      | .error err => return .error err
      | .ok _ => return .ok ()

/-- One request of `sendReply`. -/
def sendStep (parseDate : List Char → Option Int) (step : String) : GraphRequest → Sending (Except GraphError (GraphResponse GraphBody)) :=
  succeed parseDate fun res => "Graph sendReply/".toList ++ step.toList ++ ": ".toList ++ (toString res.status).toList ++ snippet res

/-- The draft, with the text above what it quotes. -/
def sendDraft (parseDate : List Char → Option Int) (mailbox : String) (bodyText : List Char) (draft : Draft) : Sending (Except GraphError Unit) := do
  let content := if draft.content = [] then textToHtml bodyText else textToHtml bodyText ++ "<br>".toList ++ draft.content
  match ← sendStep parseDate "patch" (.patch mailbox draft.id content) with
  | .error err => return .error err
  | .ok _ =>
    match ← sendStep parseDate "send" (.sendDraft mailbox draft.id) with
    | .error err => return .error err
    | .ok _ => return .ok ()

def sendReply (parseDate : List Char → Option Int) (token : Except GraphError String) (mailbox graphMessageId : String) (bodyText : List Char) :
    Sending (Except GraphError Unit) := do
  if mailbox = "" then return .error (thrown "sendReply: mailbox manquant".toList)
  else if graphMessageId = "" then return .error (thrown "sendReply: graphMessageId manquant".toList)
  else
    match token with
    | .error err => return .error err
    | .ok _ =>
      match ← sendStep parseDate "createReply" (.createReply mailbox graphMessageId) with
      | .error err => return .error err
      | .ok res =>
        match res.body.json with
        | .error message => return .error (thrown message)
        | .ok draft =>
          if draft.id = "" then return .error (thrown "sendReply: createReply sans id de brouillon".toList)
          else sendDraft parseDate mailbox bodyText draft

/-- The requests by which a mail leaves. -/
def GraphRequest.leaves : GraphRequest → Bool
  | .sendMail .. | .sendDraft .. => true
  | .createReply .. | .patch .. => false

def mails (w : GraphWorld GraphRequest) : List GraphRequest := w.processed.filter GraphRequest.leaves

/-- What one request of a send has done since `w₀`. -/
structure Stepped {α : Type} (request : GraphRequest) (w₀ : GraphWorld GraphRequest) (result : Except GraphError α) (w : GraphWorld GraphRequest) :
    Prop where
  once : w.processed = w₀.processed ∨ w.processed = w₀.processed ++ [request]
  ok : ∀ value, result = .ok value → w.processed = w₀.processed ++ [request]
  aborted : ∀ err, result = .error err → err.retryAborted = true → w.processed = w₀.processed

/-- Since `w₀` one mail has left, as `meant` after the requests before it. -/
def Left (meant : List GraphRequest → GraphRequest → Prop) (w₀ w : GraphWorld GraphRequest) : Prop :=
  ∃ before m, meant before m ∧ w.processed = w₀.processed ++ before ++ [m] ∧ mails w = mails w₀ ++ [m]

/-- What a send has done since `w₀`: a mail has left at most once, one as `meant` when it returns, and none when it gives up for the stop. -/
structure Sent (meant : List GraphRequest → GraphRequest → Prop) (w₀ : GraphWorld GraphRequest) (result : Except GraphError Unit)
    (w : GraphWorld GraphRequest) : Prop where
  once : mails w = mails w₀ ∨ Left meant w₀ w
  ok : result = .ok () → Left meant w₀ w
  aborted : ∀ err, result = .error err → err.retryAborted = true → mails w = mails w₀

/-- The only request of `sendMail`. -/
def MailOf (sender to_ subject : String) (bodyText : List Char) (before : List GraphRequest) (m : GraphRequest) : Prop :=
  before = [] ∧ m = .sendMail sender to_ (if subject = "" then "(sans sujet)" else subject) (textToHtml bodyText)

/-- The draft that leaves is a reply to the message, with the text above what it quotes. -/
def ReplyOf (mailbox graphMessageId : String) (bodyText : List Char) (before : List GraphRequest) (m : GraphRequest) : Prop :=
  ∃ draft : Draft, draft.id ≠ "" ∧ before = [.createReply mailbox graphMessageId, .patch mailbox draft.id
      (if draft.content = [] then textToHtml bodyText else textToHtml bodyText ++ "<br>".toList ++ draft.content)] ∧
    m = .sendDraft mailbox draft.id

variable {parseDate : List Char → Option Int} {request : GraphRequest} {meant : List GraphRequest → GraphRequest → Prop} {before : List GraphRequest} {w₀ w w₁ : GraphWorld GraphRequest}

theorem processed_stopping (moves : Stopping w w₁) : w₁.processed = w.processed := by
  obtain ⟨stopped, -, rfl⟩ := moves
  rfl

theorem Sent.stopping {result : Except GraphError Unit} (sent : Sent meant w₀ result w) (moves : Stopping w w₁) : Sent meant w₀ result w₁ := by
  obtain ⟨stopped, -, rfl⟩ := moves
  exact ⟨sent.once, sent.ok, sent.aborted⟩

theorem Stepped.stopping {α : Type} {result : Except GraphError α} (stepped : Stepped request w₀ result w) (moves : Stopping w w₁) :
    Stepped request w₀ result w₁ := by
  have same := processed_stopping moves
  exact ⟨by rw [same]; exact stepped.once, by rw [same]; exact stepped.ok, by rw [same]; exact stepped.aborted⟩

/-- Of an error nothing is said but that the request has been processed at most once. -/
theorem Stepped.of_fetched {α : Type} {retries : Nat} {fetched : Except FetchError (GraphResponse GraphBody)} {result : Except GraphError α}
    (done : Fetched parseDate graphFetchDefaults request retries w₀ fetched w)
    (ok : ∀ value, result = .ok value → ∃ res, fetched = .ok res ∧ res.ok = true)
    (aborted : ∀ err, result = .error err → err.retryAborted = true → fetched = .error .retryAborted) : Stepped request w₀ result w where
  once := done.once
  ok value is := by
    obtain ⟨res, fine, success⟩ := ok value is
    exact done.ok res fine success
  aborted err is stop := (done.aborted (aborted err is stop)).1

theorem graphFetch_safe (request : GraphRequest) (w : GraphWorld GraphRequest) :
    FetchSafe (Fetched parseDate graphFetchDefaults request 3 w)
      (graphFetch parseDate graphFetchDefaults request : Sending (Except FetchError (GraphResponse GraphBody))) w :=
  attempts_safe (Nat.zero_add _) ⟨rfl, le_rfl, Nat.le_add_right ..⟩

theorem succeed_safe (message : GraphResponse GraphBody → List Char) (request : GraphRequest) (w : GraphWorld GraphRequest) :
    FetchSafe (Stepped request w) (succeed parseDate message request) w := by
  refine Rules.Safe.bind (graphFetch_safe request w) trivial fun fetched w₁ _ done => ?_
  cases fetched with
  | error err =>
    refine fun w₂ moves _ => Stepped.stopping (.of_fetched done (fun _ is => by cases is) fun e is stop => ?_) moves
    cases is
    exact congrArg Except.error (of_decide_eq_true stop)
  | ok res =>
    dsimp only
    split
    · next fine =>
      exact fun w₂ moves _ => Stepped.stopping (.of_fetched done (fun _ _ => ⟨res, rfl, fine⟩) fun e is _ => by cases is) moves
    · refine fun w₂ moves _ => Stepped.stopping (.of_fetched done (fun _ is => by cases is) fun e is stop => ?_) moves
      cases is
      cases stop

theorem mails_append (quiet : request.leaves = false) (one : w.processed = w₀.processed ∨ w.processed = w₀.processed ++ [request]) :
    mails w = mails w₀ := by
  unfold mails
  rcases one with same | more
  · rw [same]
  · rw [more, List.filter_append, List.filter_cons_of_neg (by rw [quiet]; exact Bool.false_ne_true), List.filter_nil, List.append_nil]

theorem mails_leaving (leaves : request.leaves = true) (more : w.processed = w₀.processed ++ [request]) : mails w = mails w₀ ++ [request] := by
  unfold mails
  rw [more, List.filter_append, List.filter_cons_of_pos leaves, List.filter_nil]

/-- The requests `before` have been processed, and no mail has left by them. -/
structure Quiet (before : List GraphRequest) (w₀ w : GraphWorld GraphRequest) : Prop where
  processed : w.processed = w₀.processed ++ before
  mails : mails w = mails w₀

/-- The request by which the mail leaves, after requests by which none does. -/
theorem Stepped.sent {α : Type} {step : Except GraphError α} {result : Except GraphError Unit} (stepped : Stepped request w step w₁)
    (quiet : Quiet before w₀ w) (leaves : request.leaves = true) (means : meant before request)
    (ok : result = .ok () → ∃ value, step = .ok value) (error : ∀ err, result = .error err → step = .error err) : Sent meant w₀ result w₁ where
  once := by
    rcases stepped.once with same | more
    · exact .inl ((congrArg (List.filter GraphRequest.leaves) same).trans quiet.mails)
    · exact .inr ⟨before, request, means, by rw [more, quiet.processed], by rw [← quiet.mails]; exact mails_leaving leaves more⟩
  ok is := by
    obtain ⟨value, fine⟩ := ok is
    have more := stepped.ok value fine
    exact ⟨before, request, means, by rw [more, quiet.processed], by rw [← quiet.mails]; exact mails_leaving leaves more⟩
  aborted err is stop := (congrArg (List.filter GraphRequest.leaves) (stepped.aborted err (error err is) stop)).trans quiet.mails

/-- One more request by which no mail leaves. -/
theorem Stepped.quiet {α : Type} {value : α} (stepped : Stepped request w (.ok value) w₁) (quiet : Quiet before w₀ w)
    (silent : request.leaves = false) : Quiet (before ++ [request]) w₀ w₁ where
  processed := by rw [stepped.ok value rfl, quiet.processed, List.append_assoc]
  mails := (mails_append silent stepped.once).trans quiet.mails

/-- An error before any mail has left. -/
theorem unsent {err : GraphError} (before : mails w = mails w₀) :
    FetchSafe (Sent meant w₀) (.ret (.error err) : Sending (Except GraphError Unit)) w := fun w₁ moves _ =>
  Sent.stopping ⟨.inl before, (by intro is; cases is), fun _ _ _ => before⟩ moves

/-- The last request of a send. -/
theorem leaving_safe (message : GraphResponse GraphBody → List Char) (quiet : Quiet before w₀ w) (leaves : request.leaves = true)
    (means : meant before request) : FetchSafe (Sent meant w₀) (do
      match ← succeed parseDate message request with
      | .error err => return .error err
      | .ok _ => return .ok ()) w := by
  refine Rules.Safe.bind (succeed_safe message request w) trivial fun sent w₁ _ stepped => ?_
  cases sent with
  | error err =>
    exact fun w₂ moves _ => Sent.stopping (stepped.sent quiet leaves means (fun is => by cases is) fun e is => by cases is; rfl) moves
  | ok res =>
    exact fun w₂ moves _ => Sent.stopping (stepped.sent quiet leaves means (fun _ => ⟨res, rfl⟩) fun e is => by cases is) moves

theorem quiet_start (w : GraphWorld GraphRequest) : Quiet [] w w := ⟨(List.append_nil _).symm, rfl⟩

theorem sendMail_safe (token : Except GraphError String) (sender to_ subject : String) (bodyText : List Char) (w : GraphWorld GraphRequest) :
    FetchSafe (Sent (MailOf sender to_ subject bodyText) w) (sendMail parseDate token sender to_ subject bodyText) w := by
  unfold sendMail
  split
  · exact unsent rfl
  split
  · exact unsent rfl
  split
  · exact unsent rfl
  exact leaving_safe _ (quiet_start w) rfl ⟨rfl, rfl⟩

theorem sendDraft_safe (mailbox graphMessageId : String) (bodyText : List Char) (draft : Draft) (named : draft.id ≠ "")
    (quiet : Quiet [.createReply mailbox graphMessageId] w₀ w) :
    FetchSafe (Sent (ReplyOf mailbox graphMessageId bodyText) w₀) (sendDraft parseDate mailbox bodyText draft) w := by
  refine Rules.Safe.bind (succeed_safe _ _ w) trivial fun patched w₁ _ stepped => ?_
  cases patched with
  | error err => exact unsent ((mails_append rfl stepped.once).trans quiet.mails)
  | ok res => exact leaving_safe _ (stepped.quiet quiet rfl) rfl ⟨draft, named, rfl, rfl⟩

theorem sendReply_safe (token : Except GraphError String) (mailbox graphMessageId : String) (bodyText : List Char) (w : GraphWorld GraphRequest) :
    FetchSafe (Sent (ReplyOf mailbox graphMessageId bodyText) w) (sendReply parseDate token mailbox graphMessageId bodyText) w := by
  unfold sendReply
  split
  · exact unsent rfl
  split
  · exact unsent rfl
  split
  · exact unsent rfl
  refine Rules.Safe.bind (succeed_safe _ _ w) trivial fun created w₁ _ stepped => ?_
  cases created with
  | error err => exact unsent (mails_append rfl stepped.once)
  | ok res =>
    have quiet := stepped.quiet (quiet_start w) rfl
    dsimp only
    split
    · exact unsent quiet.mails
    split
    · exact unsent quiet.mails
    · next named => exact sendDraft_safe mailbox graphMessageId bodyText _ named quiet

/-- Whatever Graph and the network answer, at most one mail leaves by a send: one when it returns, and none when it gives up for the
stop of the API. -/
theorem sends_once (token : Except GraphError String) (bodyText : List Char) :
    (∀ sender to_ subject result w₁,
      Rules.Ends (Rules.meanwhile Stopping fetchExec) (sendMail parseDate token sender to_ subject bodyText) w result w₁ →
        Sent (MailOf sender to_ subject bodyText) w result w₁) ∧
    ∀ mailbox graphMessageId result w₁,
      Rules.Ends (Rules.meanwhile Stopping fetchExec) (sendReply parseDate token mailbox graphMessageId bodyText) w result w₁ →
        Sent (ReplyOf mailbox graphMessageId bodyText) w result w₁ := by
  refine ⟨fun sender to_ subject result w₁ ends => ?_, fun mailbox graphMessageId result w₁ ends => ?_⟩
  · exact ((sendMail_safe token sender to_ subject bodyText w).ends_meanwhile trivial (fun _ _ _ => id) ends).2
  · exact ((sendReply_safe token mailbox graphMessageId bodyText w).ends_meanwhile trivial (fun _ _ _ => id) ends).2

/-- The reply leaves, and its answer is lost. -/
theorem sends_once_lost : ∃ draft, mails ⟨[.createReply "support" "7", .patch "support" "d" "<p>x</p>".toList, .sendDraft "support" "d"], 3, 0, false⟩ =
    [GraphRequest.sendDraft "support" draft] := by
  have ends : Rules.Ends (Rules.meanwhile Stopping fetchExec) (sendReply (fun _ => none) (.ok "token") "support" "7" ['x']) ⟨[], 0, 0, false⟩
      (.error (thrown "reset".toList))
      ⟨[.createReply "support" "7", .patch "support" "d" "<p>x</p>".toList, .sendDraft "support" "d"], 3, 0, false⟩ := by
    refine .perform (.ok ⟨201, none, ⟨none, .ok ⟨"d", []⟩⟩⟩) _ ⟨_, Stopping.refl _, .processed (by decide)⟩ ?_
    refine .perform (.ok ⟨200, none, ⟨none, .error []⟩⟩) _ ⟨_, Stopping.refl _, .processed (by decide)⟩ ?_
    refine .perform (.error ⟨false, "reset".toList⟩) _ ⟨_, Stopping.refl _, .lost⟩ ?_
    exact .ret
  rcases ((sends_once (.ok "token") ['x']).2 _ _ _ _ ends).once with none_ | ⟨before, m, ⟨draft, -, -, rfl⟩, -, one⟩
  · exact absurd none_ (by decide)
  · exact ⟨draft.id, one⟩

end Opale.EmailBridge.GraphSend
