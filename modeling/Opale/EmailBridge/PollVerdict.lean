import Opale.EmailBridge.PollProgress
import Opale.EmailBridge.PollSearch
import Opale.EmailBridge.PollSuspects

namespace Opale.EmailBridge.PollCursor

def Saved.retry (s : Saved) : Option Retry := (parseState s.state s.cursor).2.1

def Saved.scan (s : Saved) : Option Scan := (parseState s.state s.cursor).2.2

/-- A mail has written, or one has failed after the suspect. -/
def Met (answers : List Answer) : Prop :=
  (∃ a ∈ answers, a.Writes) ∨ ∃ a b, [a, b].Sublist answers ∧ a.Fails ∧ b.Fails

theorem Met.append {answers : List Answer} (met : Met answers) (more : List Answer) : Met (answers ++ more) := by
  obtain ⟨a, member, writes⟩ | ⟨a, b, both, fails⟩ := met
  · exact .inl ⟨a, List.mem_append_left more member, writes⟩
  · exact .inr ⟨a, b, both.trans (List.sublist_append_left answers more), fails⟩

/-- No mail of the mailbox is left behind the position. -/
def Mailbox.Over (mailbox : Mailbox) (p : Position) : Prop := ∀ m ∈ mailbox.mails, p.Past m

/-- The mails that a search has still to pass. -/
def Mailbox.left (mailbox : Mailbox) (p : Position) : List Message := mailbox.mails.filter fun m => ¬p.Past m

theorem left_lt {mailbox : Mailbox} {p q : Position} {m : Message} (before : p.Before q) (member : m ∈ mailbox.mails)
    (new : ¬p.Past m) (past : q.Past m) : (mailbox.left q).length < (mailbox.left p).length := by
  have within : mailbox.left q = (mailbox.left p).filter fun m => ¬q.Past m := by
    unfold Mailbox.left
    rw [List.filter_filter]
    refine List.filter_congr fun m₁ _ => ?_
    rw [Bool.eq_iff_iff]
    simp only [decide_eq_true_eq, Bool.and_eq_true]
    exact ⟨fun late => ⟨late, fun past => late (past.mono before)⟩, fun late => late.1⟩
  rw [within]
  refine List.length_filter_lt_length_iff_exists.mpr ⟨m, ?_, by simpa using past⟩
  exact List.mem_filter.mpr ⟨member, decide_eq_true new⟩

/-- Fewer mails of one second than a tick may skip on its way to the suspect and beyond. -/
def Mailbox.Few (mailbox : Mailbox) : Prop :=
  ∀ second, (mailbox.mails.filter fun m => secondOf m.date = second).length ≤ 900

theorem length_of_skips {mailbox : Mailbox} (few : mailbox.Few) {p : Position} {before rest : List Message}
    (listed : mailbox.since p.atDate = before ++ rest) (skips : ∀ m ∈ before, p.Skips m) :
    before.length / PAGE_SIZE ≤ 18 := by
  have same : ∀ m ∈ before, decide (secondOf m.date = secondOf p.atDate) = true := by
    intro m member
    have late : m ∈ mailbox.since p.atDate := by
      rw [listed]
      exact List.mem_append_left _ member
    have date := Int.le_antisymm (skips m member).1 (of_decide_eq_true (List.mem_filter.mp late).2)
    rw [date]
    exact decide_eq_true rfl
  have sub : before.Sublist mailbox.mails := by
    have inside : before.Sublist (mailbox.since p.atDate) := by
      rw [listed]
      exact List.sublist_append_left before rest
    exact inside.trans List.filter_sublist
  have short := (sub.filter fun m => decide (secondOf m.date = secondOf p.atDate)).length_le.trans (few (secondOf p.atDate))
  rw [List.filter_eq_self.mpr same] at short
  simp only [PAGE_SIZE]
  omega

/-- The saved state of a search: the mailbox is blocked just before a suspect, with a position to jump to. -/
structure Blocks (mailbox : Mailbox) (s : Saved) (m : Message) (r : Retry) (scan : Scan) : Prop where
  record : s.retry = some r
  found : s.scan = some scan
  id : r.id = m.id
  same : scan.id = m.id
  attempts : MAX_INGEST_ATTEMPTS ≤ r.attempts
  handled : m.toProcess = true
  first : mailbox.First s.position m

theorem parseState_saved (w : Walk) : parseState w.saved.state w.saved.cursor =
    (w.position.done, w.retry, w.keepScan.filter fun scan => w.retry.any fun retry => scan.id = retry.id) := by
  simp [Walk.saved, parseState, Option.filter_filter]

/-- Any tick that saves a position for a suspect leaves the mailbox blocked so. -/
theorem blocks_saved {env : Environment} {mailbox : Mailbox} (reads : env.Reads mailbox) {s : Saved} {scan : Scan}
    (kept : (pollMailboxCursor env s).saved.scan = some scan) :
    ∃ m r, Blocks mailbox (pollMailboxCursor env s).saved m r scan := by
  have position := position_saved (pollMailboxCursor env s)
  have parsed := parseState_saved (pollMailboxCursor env s)
  have found := kept
  rw [Saved.scan, parsed] at kept
  obtain ⟨keep, -⟩ := Option.filter_eq_some_iff.mp kept
  obtain ⟨blocked, free, suspect, r, stands, same, back, retry, id, attempts⟩ := keeps_pollMailboxCursor reads keep
  refine ⟨suspect.message, r, ?_, found, id, same, attempts, stands.handled, ?_⟩
  · rw [Saved.retry, parsed]
    exact retry
  · rw [position, back]
    exact stands.first

/-- The suspect saved fails again in this tick, and is old enough to be one. -/
structure FailsAgain (env : Environment) (s : Saved) : Prop where
  fails : ∀ scan, s.scan = some scan → ∀ n m memo, m.id = scan.id → (env.handle n m memo).Fails
  aged : ∀ r, s.retry = some r → ∀ n, MIN_POISON_AGE_MS ≤ env.now n - r.firstAt

/-- The search goes on behind `m`, or has met a mail that writes or fails. -/
def Searched (p : Position) (m : Message) (suspect : Suspect) (w : Walk) : Prop :=
  Met w.answers ∨ (∃ a ∈ w.answers, a.Fails) ∧ w.suspect = some suspect ∧ w.jumpTo = none ∧ w.blocked = false ∧
    p.Before w.position ∧ w.position.Past m

section

variable {env : Environment} {w : Walk} {p : Position} {m m₁ : Message} {suspect : Suspect}

theorem searched_of_new (fails : ∃ a ∈ w.answers, a.Fails) (found : w.suspect = some suspect) (stays : w.jumpTo = none)
    (open_ : w.blocked = false) (here : w.position = p ∧ m₁ = m ∨ p.Before w.position ∧ w.position.Past m)
    (new : ¬w.position.Skips m₁) : Searched p m suspect (readMail env m₁ w).value := by
  obtain ⟨a, member, failed⟩ := fails
  have read := mailRead env m₁ w
  generalize readMail env m₁ w = step at read
  cases read with
  | skipped skips => exact absurd skips new
  | passed answers processed _ _ =>
    have moves : w.position.Before (advance m₁ (w.noting answers processed)).position := before_advance new
    refine .inr ⟨⟨a, List.mem_append_left _ member, failed⟩, found, stays, open_, ?_⟩
    obtain ⟨rfl, rfl⟩ | ⟨before, past⟩ := here
    · exact ⟨moves, past_advance m₁ (w.noting answers processed)⟩
    · exact ⟨before.trans moves, past.mono moves⟩
  | waits _ _ _ _ free _ _ _ _ _ _ => cases free.symm.trans found
  | suspected _ _ _ _ _ _ free _ _ => cases free.symm.trans found
  | jumps _ _ _ _ _ _ _ free _ _ _ => cases free.symm.trans found
  | systemic error memo σ _ _ =>
    refine .inl (.inr ⟨a, .retry error memo, ?_, failed, error, memo, rfl⟩)
    change [a, .retry error memo].Sublist (systemic σ error _).answers
    rw [answers_systemic]
    exact (List.singleton_sublist.mpr member).append (List.Sublist.refl [_])
  | verdict σ _ _ =>
    refine .inl (.inl ⟨.settled true, ?_, rfl⟩)
    rw [answers_verdict]
    exact List.mem_append_right _ List.mem_cons_self

theorem searched_readMail (searched : Searched p m suspect w) : Searched p m suspect (readMail env m₁ w).value := by
  by_cases skips : w.position.Skips m₁
  · rw [readMail_of_skips skips]
    exact searched
  · obtain met | ⟨fails, found, stays, open_, before⟩ := searched
    · obtain ⟨more, answers⟩ := answers_readMail env m₁ w
      exact .inl (answers ▸ met.append more)
    · exact searched_of_new fails found stays open_ (.inr before) skips

theorem searched_turnPage {page : Page} {atBefore : Int} (searched : Searched p m suspect w) :
    Searched p m suspect (turnPage page atBefore w).value := by
  obtain met | ⟨fails, found, stays, open_, before⟩ := searched
  · obtain ⟨_, _, _, _, _, same⟩ := turnPage_eq page atBefore w
    rw [same]
    exact .inl met
  · rw [turnPage_of_stays page atBefore open_ stays, counted_eq]
    exact .inr ⟨fails, found, stays, open_, before⟩

theorem searched_readPage (searched : Searched p m suspect w) : Searched p m suspect (readPage env w).value := by
  cases listed : env.list w.listings w.listFrom w.nextLink with
  | none =>
    rw [readPage_of_none listed]
    exact searched
  | some page =>
    rw [readPage_eq listed]
    have opened : Searched p m suspect (w.opened page) := searched
    exact searched_turnPage (forOf_keeps (fun _ _ _ => searched_readMail) _ opened)

/-- A search that the tick does not decide leaves the position that it has reached. -/
theorem scan_of_suspect {s : Saved} (loop : (pageLoop env).run (.start s) = w) (found : w.suspect = some suspect)
    (id : suspect.record.id = suspect.message.id) :
    (pollMailboxCursor env s).saved.scan = some ⟨suspect.message.id, w.position, suspect.since⟩ := by
  have blocked := blocked_closeSearch env found
  unfold pollMailboxCursor
  rw [loop, clearRetry_of_blocked blocked, valve_of_blocked blocked, Saved.scan, parseState_saved]
  unfold closeSearch
  simp only [found]
  split_ifs
  · simp [id]
  · simp [id]

end

section

variable {env : Environment} {mailbox : Mailbox} {s : Saved} {m : Message} {r : Retry} {scan : Scan}

/-- The way to the suspect: the tick finds it and goes on from the position kept. -/
theorem run_resumes (blocks : Blocks mailbox s m r scan) (reads : env.Reads mailbox) (again : FailsAgain env s)
    (few : mailbox.Few) : ∃ w suspect, (pageLoop env).run (.start s) = (pageLoop env).run w ∧ w.position = scan.position ∧
      w.listFrom = scan.position.atDate ∧ w.nextLink = none ∧ w.jumpTo = none ∧ w.blocked = false ∧ w.pages = 1 ∧
      w.skipPages ≤ 18 ∧ w.processed = 1 ∧ (∃ a ∈ w.answers, a.Fails) ∧ w.suspect = some suspect ∧
      suspect.record.id = suspect.message.id ∧ suspect.message.id = scan.id := by
  obtain ⟨before, after, listed, skips, new⟩ := blocks.first
  have short := length_of_skips few listed skips
  have first : PAGE_SIZE * (before.length / PAGE_SIZE) ≤ before.length := Nat.mul_div_le _ _
  have last : before.length < PAGE_SIZE * (before.length / PAGE_SIZE) + PAGE_SIZE := Nat.lt_mul_div_succ _ (by decide)
  obtain ⟨w₁, skipped, same⟩ := skip_run (w := .start s) (j := before.length / PAGE_SIZE) reads rfl listed skips
    (List.cons_ne_nil _ _) rfl rfl (Nat.zero_lt_succ _) (Nat.zero_lt_succ _) first (by
      change 0 + before.length / PAGE_SIZE < 40
      omega)
  have resumes : Resumes env w₁ m r scan := by
    refine ⟨blocks.handled, fun n memo => again.fails scan blocks.found n m memo blocks.same.symm, ?_, ?_, blocks.id, ?_,
      again.aged r blocks.record _, ?_, blocks.same⟩
    · rw [skipped.same]
      rfl
    · rw [skipped.same]
      exact blocks.record
    · have attempts := blocks.attempts
      omega
    · rw [skipped.same]
      exact blocks.found
  have here : w₁.position = s.position := skipped.position
  obtain ⟨w₂, turn, resumed⟩ := readPage_resumes resumes (here ▸ new) skipped.blocked (list_of_skipped reads skipped)
    (scanned_new listed first last) (fun m member => here ▸ skips m (List.mem_of_mem_drop member))
  obtain ⟨suspect, found, is_⟩ := resumed.suspect
  obtain ⟨a, fails, answers⟩ := resumed.answers
  have pages : w₂.pages = 1 := by rw [resumed.pages, skipped.pages]; rfl
  have processed : w₂.processed = 1 := by rw [resumed.processed, skipped.processed]; rfl
  have skipPages : w₂.skipPages = before.length / PAGE_SIZE := by
    rw [resumed.skipPages, skipped.skipPages]
    exact Nat.zero_add _
  have goes : w₂.again = true := by
    simp only [Walk.again, resumed.graphNext, pages, processed, skipPages, MAX_PAGES, MAX_SKIP_PAGES, PAGE_SIZE] at short ⊢
    simp only [Bool.true_and, Bool.and_eq_true, decide_eq_true_eq]
    omega
  refine ⟨w₂, suspect, same.trans (DoWhile.run_of_again turn goes), resumed.position, resumed.listFrom, resumed.nextLink,
    resumed.jumpTo, resumed.blocked, pages, skipPages ▸ short, processed, ⟨a, ?_, fails⟩, found, ?_, ?_⟩
  · rw [answers]
    exact List.mem_append_right _ List.mem_cons_self
  · rw [is_.id, is_.message]
  · rw [is_.message, blocks.same]

/-- One tick of the search. -/
theorem search_tick (blocks : Blocks mailbox s m r scan) (reads : env.Reads mailbox) (again : FailsAgain env s)
    (few : mailbox.Few) : Met (pollMailboxCursor env s).answers ∨ mailbox.Over scan.position ∨
      ∃ scan₁, (pollMailboxCursor env s).saved.scan = some scan₁ ∧ scan₁.id = scan.id ∧
        scan.position.Before scan₁.position ∧ (mailbox.left scan₁.position).length < (mailbox.left scan.position).length := by
  by_cases over_ : mailbox.Over scan.position
  · exact .inr (.inl over_)
  obtain ⟨w, suspect, same, position, listFrom, nextLink, stays, open_, pages, skipPages, processed, fails, found, id,
    sameId⟩ := run_resumes blocks reads again few
  have pending : ∃ m ∈ mailbox.since scan.position.atDate, ¬scan.position.Skips m := by
    simp only [Mailbox.Over, not_forall] at over_
    obtain ⟨m₁, member, new⟩ := over_
    obtain ⟨late, new⟩ := not_or.mp new
    exact ⟨m₁, List.mem_filter.mpr ⟨member, decide_eq_true (Int.not_lt.mp late)⟩, new⟩
  obtain ⟨before, m₁, after, listed, skips, new⟩ := exists_new pending
  have short := length_of_skips few listed skips
  have first : PAGE_SIZE * (before.length / PAGE_SIZE) ≤ before.length := Nat.mul_div_le _ _
  have last : before.length < PAGE_SIZE * (before.length / PAGE_SIZE) + PAGE_SIZE := Nat.lt_mul_div_succ _ (by decide)
  have listed₁ : mailbox.since w.listFrom = before ++ m₁ :: after := listFrom ▸ listed
  obtain ⟨w₁, skipped, same₁⟩ := skip_run (j := before.length / PAGE_SIZE) reads nextLink listed₁ (position ▸ skips)
    (List.cons_ne_nil _ _) open_ stays (by rw [pages]; decide) (by rw [processed]; decide) first (by
      simp only [MAX_SKIP_PAGES]
      omega)
  have here : w₁.position = scan.position := skipped.position.trans position
  have searched : Searched scan.position m₁ suspect ((pageLoop env).run w₁) := by
    refine DoWhile.run_first w₁ ?_ fun _ => searched_readPage
    change Searched scan.position m₁ suspect (readPage env w₁).value
    rw [readPage_new (list_of_skipped reads skipped) (scanned_new listed₁ first last)
      fun m member => here ▸ skips m (List.mem_of_mem_drop member)]
    refine searched_turnPage (forOf_first ?_ fun _ _ _ => searched_readMail)
    exact searched_of_new (w := w₁.opened _) (by rw [skipped.same]; exact fails) (by rw [skipped.same]; exact found)
      (skipped.jumpTo.trans stays) (skipped.blocked.trans open_) (.inl ⟨here, rfl⟩) (here ▸ new)
  rw [← same₁, ← same] at searched
  obtain met | ⟨_, found₁, _, _, before₁, past⟩ := searched
  · rw [answers_pollMailboxCursor]
    exact .inl met
  · refine .inr (.inr ⟨_, scan_of_suspect rfl found₁ id, sameId, before₁, ?_⟩)
    have member : m₁ ∈ mailbox.since scan.position.atDate := by
      rw [listed]
      exact List.mem_append_right _ List.mem_cons_self
    obtain ⟨mail, late⟩ := List.mem_filter.mp member
    exact left_lt before₁ mail (fun old => new (old.skips (of_decide_eq_true late))) past

end

/-- The settings before each of a sequence of ticks. -/
def settings (env : Nat → Environment) (s : Saved) : Nat → Saved
  | 0 => s
  | t + 1 => (pollMailboxCursor (env t) (settings env s t)).saved

/-- The search of this tick meets a mail that writes, a mail that fails, or the end of the mailbox. -/
def Ends (mailbox : Mailbox) (env : Environment) (s : Saved) : Prop :=
  Met (pollMailboxCursor env s).answers ∨ ∃ scan, s.scan = some scan ∧ mailbox.Over scan.position

section

variable {mailbox : Mailbox} {env : Nat → Environment} {s : Saved}

theorem search_step {t : Nat} {m : Message} {r : Retry} {scan : Scan} (few : mailbox.Few)
    (reads : ∀ t, (env t).Reads mailbox) (blocks : Blocks mailbox (settings env s t) m r scan)
    (again : FailsAgain (env t) (settings env s t)) (goes : ¬Ends mailbox (env t) (settings env s t)) :
    ∃ m₁ r₁ scan₁, Blocks mailbox (settings env s (t + 1)) m₁ r₁ scan₁ ∧ scan₁.id = scan.id ∧
      scan.position.Before scan₁.position ∧ (mailbox.left scan₁.position).length < (mailbox.left scan.position).length := by
  obtain met | over_ | ⟨scan₁, kept, id, before, less⟩ := search_tick blocks (reads t) again few
  · exact absurd (.inl met) goes
  · exact absurd (.inr ⟨scan, blocks.found, over_⟩) goes
  · obtain ⟨m₁, r₁, blocks₁⟩ := blocks_saved (reads t) kept
    exact ⟨m₁, r₁, scan₁, blocks₁, id, before, less⟩

/-- As long as the search goes on, a mail less is left to it after each tick. -/
theorem search_goes_on {scan : Scan} (few : mailbox.Few) (reads : ∀ t, (env t).Reads mailbox)
    (blocks : ∃ m r, Blocks mailbox s m r scan) (t : Nat)
    (again : ∀ u < t, FailsAgain (env u) (settings env s u)) (goes : ∀ u < t, ¬Ends mailbox (env u) (settings env s u)) :
    ∃ m r scan, Blocks mailbox (settings env s t) m r scan ∧
      (mailbox.left scan.position).length + t ≤ mailbox.mails.length := by
  induction t with
  | zero =>
    obtain ⟨m, r, blocks⟩ := blocks
    exact ⟨m, r, scan, blocks, List.length_filter_le _ _⟩
  | succ t ih =>
    obtain ⟨m, r, scan, blocks, left⟩ :=
      ih (fun u less => again u (less.trans t.lt_succ_self)) (fun u less => goes u (less.trans t.lt_succ_self))
    obtain ⟨m₁, r₁, scan₁, blocks₁, _, _, less⟩ :=
      search_step few reads blocks (again t t.lt_succ_self) (goes t t.lt_succ_self)
    exact ⟨m₁, r₁, scan₁, blocks₁, by omega⟩

/-- A search whose suspect fails again at each tick moves its position forward from tick to tick, and
meets a mail that writes, a mail that fails or the end of the mailbox after finitely many. -/
theorem search_ends {env₀ : Environment} {s₀ : Saved} {scan : Scan} (few : mailbox.Few) (reads₀ : env₀.Reads mailbox)
    (kept : (pollMailboxCursor env₀ s₀).saved.scan = some scan) (reads : ∀ t, (env t).Reads mailbox)
    (again : ∀ t, (∀ u < t, ¬Ends mailbox (env u) (settings env (pollMailboxCursor env₀ s₀).saved u)) →
      FailsAgain (env t) (settings env (pollMailboxCursor env₀ s₀).saved t)) :
    (∀ t, (∀ u ≤ t, ¬Ends mailbox (env u) (settings env (pollMailboxCursor env₀ s₀).saved u)) →
      ∃ scan₁ scan₂, (settings env (pollMailboxCursor env₀ s₀).saved t).scan = some scan₁ ∧
        (settings env (pollMailboxCursor env₀ s₀).saved (t + 1)).scan = some scan₂ ∧ scan₂.id = scan₁.id ∧
        scan₁.position.Before scan₂.position) ∧
    ∃ t ≤ mailbox.mails.length, Ends mailbox (env t) (settings env (pollMailboxCursor env₀ s₀).saved t) := by
  have start := blocks_saved reads₀ kept
  have tries (t : Nat) (goes : ∀ u < t, ¬Ends mailbox (env u) (settings env (pollMailboxCursor env₀ s₀).saved u)) :
      ∀ u < t, FailsAgain (env u) (settings env (pollMailboxCursor env₀ s₀).saved u) :=
    fun u less => again u fun v earlier => goes v (earlier.trans less)
  constructor
  · intro t goes
    have before : ∀ u < t, ¬Ends mailbox (env u) (settings env (pollMailboxCursor env₀ s₀).saved u) :=
      fun u less => goes u less.le
    obtain ⟨m, r, scan₁, blocks, _⟩ := search_goes_on few reads start t (tries t before) before
    obtain ⟨m₁, r₁, scan₂, blocks₁, id, moves, _⟩ := search_step few reads blocks (again t before) (goes t (Nat.le_refl t))
    exact ⟨scan₁, scan₂, blocks.found, blocks₁.found, id, moves⟩
  · by_contra never
    have goes : ∀ u < mailbox.mails.length + 1,
        ¬Ends mailbox (env u) (settings env (pollMailboxCursor env₀ s₀).saved u) :=
      fun u less ends => never ⟨u, Nat.le_of_lt_succ less, ends⟩
    obtain ⟨_, _, _, _, left⟩ := search_goes_on few reads start (mailbox.mails.length + 1) (tries _ goes) goes
    omega

end

section

/-- Forty-nine mails that write, one that fails and one that writes nothing: a page, and a mail more. -/
def fiftyOne : Mailbox where
  mails := (List.range 51).map fun id => ⟨id, none, id * 1000, true⟩
  sorted := by decide
  unique := by decide

def fiftyOneTick : Environment where
  mailbox _ := some fiftyOne
  handle _ m _ := if m.id = 49 then .retry none none else .settled (m.id < 49)
  now _ := 36000000

def fiftyOneRetry (attempts : Int) : Retry := ⟨49, none, attempts, errorText none, 0, none, ⟨false, false⟩⟩

def fiftyOneSaved : Saved := ⟨0, some ⟨⟨0, ∅⟩, some (fiftyOneRetry 5), none⟩⟩

/-- The page uses up the tick: the search has passed the mail that fails. -/
theorem saved_fiftyOne : (pollMailboxCursor fiftyOneTick fiftyOneSaved).saved =
    ⟨48000, some ⟨⟨48000, {48}⟩, some (fiftyOneRetry 6), some ⟨49, ⟨49000, {49}⟩, 36000000⟩⟩⟩ := by
  unfold pollMailboxCursor
  rw [DoWhile.run_of_stops (by decide)]
  decide

/-- The next tick comes back to it, goes on from there and reaches the last mail. -/
theorem tick_fiftyOne : ∃ w, pollMailboxCursor fiftyOneTick (pollMailboxCursor fiftyOneTick fiftyOneSaved).saved = w ∧
    w.answers = [.retry none none, .settled false] ∧ w.saved =
      ⟨48000, some ⟨⟨48000, {48}⟩, some (fiftyOneRetry 7), some ⟨49, ⟨50000, {50}⟩, 36000000⟩⟩⟩ := by
  refine ⟨_, rfl, ?_⟩
  rw [saved_fiftyOne]
  have turn : (pageLoop fiftyOneTick).body (.start ⟨48000, some ⟨⟨48000, {48}⟩, some (fiftyOneRetry 6),
      some ⟨49, ⟨49000, {49}⟩, 36000000⟩⟩⟩) = .yield _ := rfl
  unfold pollMailboxCursor
  rw [DoWhile.run_of_again turn (by decide), DoWhile.run_of_stops (by decide)]
  exact ⟨rfl, by decide⟩

theorem failsAgain_fiftyOne {s : Saved} {scan : Scan} (attempts : Int) (found : s.scan = some scan) (id : scan.id = 49)
    (retry : s.retry = some (fiftyOneRetry attempts)) : FailsAgain fiftyOneTick s where
  fails scan₁ kept n m memo same := by
    cases found.symm.trans kept
    exact ⟨none, none, if_pos (same.trans id)⟩
  aged r kept n := by
    cases retry.symm.trans kept
    change (30 * 60000 : Int) ≤ 36000000 - 0
    decide

theorem search_ends_fiftyOne :
    (∃ scan₁ scan₂,
      (settings (fun _ => fiftyOneTick) (pollMailboxCursor fiftyOneTick fiftyOneSaved).saved 0).scan = some scan₁ ∧
      (settings (fun _ => fiftyOneTick) (pollMailboxCursor fiftyOneTick fiftyOneSaved).saved 1).scan = some scan₂ ∧
      scan₂.id = scan₁.id ∧ scan₁.position.Before scan₂.position) ∧
    ∃ t ≤ fiftyOne.mails.length, Ends fiftyOne fiftyOneTick
      (settings (fun _ => fiftyOneTick) (pollMailboxCursor fiftyOneTick fiftyOneSaved).saved t) := by
  obtain ⟨w, tick, answers, saved⟩ := tick_fiftyOne
  have kept : (pollMailboxCursor fiftyOneTick fiftyOneSaved).saved.scan = some ⟨49, ⟨49000, {49}⟩, 36000000⟩ := by
    rw [saved_fiftyOne]
    rfl
  have goes_on : ¬Ends fiftyOne fiftyOneTick (pollMailboxCursor fiftyOneTick fiftyOneSaved).saved := by
    rintro (met | ⟨scan, found, over_⟩)
    · rw [tick, answers] at met
      obtain ⟨a, member, writes⟩ | ⟨a, b, both, fails, fails₁⟩ := met
      · rw [writes] at member
        simp at member
      · cases both.eq_of_length rfl
        obtain ⟨_, _, settled⟩ := fails₁
        cases settled
    · cases kept.symm.trans found
      exact absurd (over_ ⟨50, none, 50000, true⟩ (by decide)) (by unfold Position.Past Position.Skips; decide)
  have over_ : Ends fiftyOne fiftyOneTick w.saved := by
    rw [saved]
    refine .inr ⟨_, rfl, ?_⟩
    unfold Mailbox.Over Position.Past Position.Skips
    decide
  have reads : fiftyOneTick.Reads fiftyOne := fun _ => rfl
  have few : fiftyOne.Few := fun second => (List.length_filter_le _ _).trans (by decide)
  have next : settings (fun _ => fiftyOneTick) (pollMailboxCursor fiftyOneTick fiftyOneSaved).saved 1 = w.saved :=
    congrArg Walk.saved tick
  obtain ⟨moves, ends⟩ := @search_ends fiftyOne (fun _ => fiftyOneTick) fiftyOneTick fiftyOneSaved _ few reads kept
    (fun _ => reads) (by
      intro t goes
      obtain rfl | rfl | later : t = 0 ∨ t = 1 ∨ 1 < t := by omega
      · refine failsAgain_fiftyOne 6 kept rfl ?_
        change (pollMailboxCursor fiftyOneTick fiftyOneSaved).saved.retry = _
        rw [saved_fiftyOne]
        rfl
      · rw [next, saved]
        exact failsAgain_fiftyOne 7 rfl rfl rfl
      · exact absurd (next ▸ over_) (goes 1 later))
  exact ⟨moves 0 (fun u least => by cases Nat.le_zero.mp least; exact goes_on), ends⟩

end

end Opale.EmailBridge.PollCursor
