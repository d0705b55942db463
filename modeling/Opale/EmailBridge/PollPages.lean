import Opale.EmailBridge.PollCursor

namespace Opale.EmailBridge.PollCursor

/-- The listing gives the mail again, and nothing is to be done for it. -/
def Position.Skips (p : Position) (m : Message) : Prop := m.date ≤ p.atDate ∧ m.id ∈ p.done

/-- A later date, or the same with more mails done. -/
def Position.Before (p q : Position) : Prop := p.atDate < q.atDate ∨ p.atDate = q.atDate ∧ p.done ⊂ q.done

theorem Position.Before.trans {p q r : Position} (first : p.Before q) (second : q.Before r) : p.Before r := by
  obtain later | ⟨same, more⟩ := first
  · obtain later₁ | ⟨same₁, _⟩ := second
    · exact .inl (later.trans later₁)
    · exact .inl (same₁ ▸ later)
  · obtain later₁ | ⟨same₁, more₁⟩ := second
    · exact .inl (same ▸ later₁)
    · exact .inr ⟨same.trans same₁, more.trans more₁⟩

def Answer.Fails (a : Answer) : Prop := ∃ error memo, a = .retry error memo

def Answer.Writes (a : Answer) : Prop := a = .settled true

/-- What the mail answers, noted before the branches. -/
def Walk.noting (w : Walk) (answers : List Answer) (processed : Nat) : Walk :=
  { w with skipOnly := false, answers := w.answers ++ answers, processed }

/-- A suspect and its record, as the failure of the mail makes them. -/
structure Suspect.Of (w : Walk) (m : Message) (suspect : Suspect) : Prop where
  message : suspect.message = m
  rollback : suspect.rollback = w.position
  id : suspect.record.id = m.id
  attempts : MAX_INGEST_ATTEMPTS ≤ suspect.record.attempts

/-- All that reading a mail can do. -/
inductive MailRead (env : Environment) (m : Message) (w : Walk) : ForInStep Walk → Prop
  | skipped : w.position.Skips m → MailRead env m w (.yield w)
  | passed (answers processed) : ¬w.position.Skips m → (∀ a ∈ answers, ∃ wrote, a = .settled wrote) →
      MailRead env m w (.yield (advance m (w.noting answers processed)))
  | waits (error memo) (w₁ : Walk) : ¬w.position.Skips m → w.suspect = none →
      w₁.answers = w.answers ++ [.retry error memo] → w₁.suspect = none → w₁.blocked = true →
      w₁.position = w.position → w₁.keepScan = w.keepScan → w₁.audits = w.audits →
      MailRead env m w (.done w₁)
  | suspected (error memo suspect clock) : ¬w.position.Skips m → m.toProcess = true → w.suspect = none →
      suspect.Of w m → suspect.jumped = false →
      MailRead env m w (.yield (advance m
        { w.noting [.retry error memo] (w.processed + 1) with suspect := some suspect, scan := none, clock }))
  | jumps (error memo suspect clock scan) : ¬w.position.Skips m → m.toProcess = true → w.suspect = none →
      suspect.Of w m → suspect.jumped = true → w.scan = some scan →
      MailRead env m w (.done
        { w.noting [.retry error memo] (w.processed + 1) with
          suspect := some suspect, scan := none, clock, jumpTo := some scan.position })
  | systemic (error memo suspect) : ¬w.position.Skips m → w.suspect = some suspect →
      MailRead env m w (.done (systemic suspect error (w.noting [.retry error memo] (w.processed + 1))))
  | verdict (suspect) : ¬w.position.Skips m → w.suspect = some suspect →
      MailRead env m w (verdict suspect m (w.noting [.settled true] (w.processed + 1)))

theorem mailRead_failed {env : Environment} {m : Message} {error memo : Option Js.Units} {w : Walk}
    (new : ¬w.position.Skips m) (handled : m.toProcess = true) (free : w.suspect = none) :
    MailRead env m w (failed env m error memo (w.noting [.retry error memo] (w.processed + 1))) := by
  unfold failed
  dsimp only
  split_ifs with few young
  · exact .waits error memo _ new free rfl free rfl rfl rfl rfl
  · exact .waits error memo _ new free rfl free rfl rfl rfl rfl
  · have often : MAX_INGEST_ATTEMPTS ≤ ((w.retry.filter (·.id = m.id)).elim 0 (·.attempts) + 1) := Int.not_lt.mp few
    unfold suspected
    dsimp only
    split
    next scan resumed =>
      obtain ⟨found, _⟩ := Option.filter_eq_some_iff.mp resumed
      exact .jumps error memo _ _ scan new handled free ⟨rfl, rfl, rfl, often⟩ (by rw [resumed]; rfl) found
    next resumed => exact .suspected error memo _ _ new handled free ⟨rfl, rfl, rfl, often⟩ (by rw [resumed]; rfl)

theorem mailRead (env : Environment) (m : Message) (w : Walk) : MailRead env m w (readMail env m w) := by
  unfold readMail
  dsimp only
  split_ifs with skips handled
  · exact .skipped skips
  · split
    next error memo suspect answer found =>
      rw [answer]
      exact .systemic error memo suspect skips found
    next error memo answer free =>
      rw [answer]
      exact mailRead_failed skips handled free
    next suspect answer found =>
      rw [answer]
      exact .verdict suspect skips found
    next answer found => exact .passed [_] w.processed skips (by simp [answer])
    next answer _ => exact .passed [_] (w.processed + 1) skips (by simp [answer])
  · have passed : MailRead env m w (.yield (advance m (w.noting [] w.processed))) := .passed [] _ skips (by simp)
    rwa [Walk.noting, List.append_nil] at passed

/-- Reading a mail that is not done moves the position forward. -/
theorem before_advance {w : Walk} {m : Message} (new : ¬w.position.Skips m) : w.position.Before (advance m w).position := by
  unfold advance
  dsimp only
  split
  next later => exact .inl later
  next early =>
    have absent : m.id ∉ w.position.done := fun done => new ⟨Int.not_lt.mp early, done⟩
    exact .inr ⟨rfl, Finset.ssubset_insert absent⟩

/-- The first mail that is not done, when there is one. -/
theorem exists_new {p : Position} {mails : List Message} (pending : ∃ m ∈ mails, ¬p.Skips m) :
    ∃ before m after, mails = before ++ m :: after ∧ (∀ m ∈ before, p.Skips m) ∧ ¬p.Skips m := by
  induction mails with
  | nil =>
    obtain ⟨m, member, _⟩ := pending
    cases member
  | cons first rest ih =>
    by_cases skips : p.Skips first
    · obtain ⟨m, member, new⟩ := pending
      have later : m ∈ rest := by
        cases member with
        | head => exact absurd skips new
        | tail _ later => exact later
      obtain ⟨before, m, after, whole, all, new⟩ := ih ⟨m, later, new⟩
      refine ⟨first :: before, m, after, by rw [whole, List.cons_append], ?_, new⟩
      exact List.forall_mem_cons.mpr ⟨skips, all⟩
    · exact ⟨[], first, rest, rfl, List.forall_mem_nil _, skips⟩

section

variable {mailbox : Mailbox} {cursor : Int} {k : Nat}

theorem since_page {m : Message} (member : m ∈ (mailbox.page cursor k).scanned) : cursor ≤ m.date := by
  have listed : m ∈ mailbox.since cursor := List.mem_of_mem_drop (List.mem_of_mem_take member)
  exact of_decide_eq_true (List.mem_filter.mp listed).2

theorem length_page (more : (mailbox.page cursor k).nextLink.isSome = true) :
    (mailbox.page cursor k).scanned.length = PAGE_SIZE := by
  simp only [Mailbox.page] at more ⊢
  split at more
  next long => rw [List.length_take]; omega
  next => cases more

theorem nextLink_page (mailbox : Mailbox) (cursor : Int) (k : Nat) :
    (mailbox.page cursor k).nextLink = none ∨ ∃ k₁, (mailbox.page cursor k).nextLink = some (.page cursor k₁) := by
  simp only [Mailbox.page]
  split
  · exact .inr ⟨_, rfl⟩
  · exact .inl rfl

theorem list_eq_page {env : Environment} {n : Nat} {nextLink : Option Link} {page : Page}
    (link : nextLink = none ∨ ∃ k, nextLink = some (.page cursor k)) (listed : env.list n cursor nextLink = some page) :
    ∃ mailbox : Mailbox, ∃ k, page = mailbox.page cursor k := by
  obtain rfl | ⟨k, rfl⟩ := link
  · obtain ⟨mailbox, _, rfl⟩ := Option.map_eq_some_iff.mp listed
    exact ⟨mailbox, 0, rfl⟩
  · obtain ⟨mailbox, _, rfl⟩ := Option.map_eq_some_iff.mp listed
    exact ⟨mailbox, k, rfl⟩

end

@[simp] theorem blocked_systemic {suspect : Suspect} {error : Option Js.Units} {w : Walk} :
    (systemic suspect error w).blocked = true := by
  unfold systemic
  split_ifs <;> rfl

theorem answers_systemic {suspect : Suspect} {error : Option Js.Units} {w : Walk} :
    (systemic suspect error w).answers = w.answers := by
  unfold systemic
  dsimp only
  split_ifs <;> rfl

theorem answers_verdict {suspect : Suspect} {m : Message} {w : Walk} : (verdict suspect m w).value.answers = w.answers := by
  unfold verdict
  dsimp only
  split_ifs <;> rfl

theorem answers_readMail (env : Environment) (m : Message) (w : Walk) :
    ∃ more, (readMail env m w).value.answers = w.answers ++ more := by
  have read := mailRead env m w
  generalize readMail env m w = step at read
  cases read with
  | skipped _ => exact ⟨[], (List.append_nil _).symm⟩
  | passed _ _ _ _ => exact ⟨_, rfl⟩
  | waits _ _ w₁ _ _ answers _ _ _ _ _ => exact ⟨_, answers⟩
  | suspected _ _ _ _ _ _ _ _ _ => exact ⟨_, rfl⟩
  | jumps _ _ _ _ _ _ _ _ _ _ _ => exact ⟨_, rfl⟩
  | systemic _ _ _ _ _ => exact ⟨_, answers_systemic⟩
  | verdict _ _ _ => exact ⟨_, answers_verdict⟩

theorem readMail_of_skips {env : Environment} {m : Message} {w : Walk} (skips : w.position.Skips m) :
    readMail env m w = .yield w := if_pos skips

def Walk.opened (w : Walk) (page : Page) : Walk :=
  { w with
    listings := w.listings + 1
    reads := w.reads ++ [⟨page.scanned, w.position.done⟩]
    skipOnly := true }

def Walk.counted (w : Walk) : Walk :=
  if w.skipOnly then { w with skipPages := w.skipPages + 1 } else { w with pages := w.pages + 1 }

/-- The turn after the mails of its page: where the next page starts. -/
def turnPage (page : Page) (atBefore : Int) (w : Walk) : ForInStep Walk :=
  if w.counted.blocked then .done w.counted
  else match w.counted.jumpTo with
    | some position => .yield { w.counted with
        position
        listFrom := position.atDate
        nextLink := none
        graphNext := some (.date position.atDate)
        jumpTo := none }
    | none =>
      if atBefore < w.counted.position.atDate then
        .yield { w.counted with graphNext := page.nextLink, nextLink := none, listFrom := w.counted.position.atDate }
      else .yield { w.counted with graphNext := page.nextLink, nextLink := page.nextLink }

section

variable {env : Environment} {w w₁ : Walk} {page : Page} {atBefore : Int}

theorem readPage_eq (listed : env.list w.listings w.listFrom w.nextLink = some page) :
    readPage env w = turnPage page w.position.atDate (forOf (readMail env) page.scanned (w.opened page)) := by
  unfold readPage
  rw [listed]
  rfl

/-- The mails of a page that are done, before the first one that is not, do not count. -/
theorem readPage_new {before after : List Message} {m : Message}
    (listed : env.list w.listings w.listFrom w.nextLink = some page) (whole : page.scanned = before ++ m :: after)
    (skips : ∀ m ∈ before, w.position.Skips m) :
    readPage env w = turnPage page w.position.atDate (forOf (readMail env) (m :: after) (w.opened page)) := by
  have same : forOf (readMail env) page.scanned (w.opened page) = forOf (readMail env) (m :: after) (w.opened page) := by
    rw [whole]
    exact forOf_append fun m member => readMail_of_skips (skips m member)
  rw [readPage_eq listed, same]

theorem readPage_of_none (fails : env.list w.listings w.listFrom w.nextLink = none) :
    readPage env w = .done { w with listings := w.listings + 1, errors := w.errors + 1 } := by
  unfold readPage
  rw [fails]

theorem counted_eq (w : Walk) : w.counted = { w with pages := w.counted.pages, skipPages := w.counted.skipPages } := by
  unfold Walk.counted
  split <;> rfl

/-- The turn leaves the mails of the page behind. -/
theorem turnPage_eq (page : Page) (atBefore : Int) (w : Walk) :
    ∃ position listFrom nextLink graphNext jumpTo, (turnPage page atBefore w).value =
      { w with
        position, listFrom, nextLink, graphNext, jumpTo
        pages := w.counted.pages
        skipPages := w.counted.skipPages } := by
  unfold turnPage
  rw [counted_eq]
  split
  · exact ⟨_, _, _, _, _, rfl⟩
  · split
    · exact ⟨_, _, _, _, _, rfl⟩
    · split <;> exact ⟨_, _, _, _, _, rfl⟩

theorem turnPage_of_blocked (blocked : w.blocked = true) : turnPage page atBefore w = .done w.counted := by
  unfold turnPage
  rw [if_pos]
  rwa [counted_eq]

theorem turnPage_of_jump (page : Page) (atBefore : Int) {p : Position} (free : w.blocked = false) (jump : w.jumpTo = some p) :
    turnPage page atBefore w = .yield { w.counted with
      position := p, listFrom := p.atDate, nextLink := none, graphNext := some (.date p.atDate), jumpTo := none } := by
  unfold turnPage
  rw [counted_eq, if_neg (by simp [free])]
  simp only [jump]

theorem turnPage_of_stays (page : Page) (atBefore : Int) (free : w.blocked = false) (stays : w.jumpTo = none) :
    turnPage page atBefore w = .yield { w.counted with
      graphNext := page.nextLink
      nextLink := if atBefore < w.position.atDate then none else page.nextLink
      listFrom := if atBefore < w.position.atDate then w.position.atDate else w.listFrom } := by
  unfold turnPage
  rw [counted_eq, if_neg (by simp [free])]
  simp only [stays]
  split <;> rfl

/-- A page of mails that are all done. -/
theorem readPage_of_skips (listed : env.list w.listings w.listFrom w.nextLink = some page)
    (all : ∀ m ∈ page.scanned, w.position.Skips m) (free : w.blocked = false) (stays : w.jumpTo = none) :
    readPage env w = .yield { w.opened page with
      skipPages := w.skipPages + 1, graphNext := page.nextLink, nextLink := page.nextLink } := by
  have same : forOf (readMail env) page.scanned (w.opened page) = w.opened page :=
    forOf_eq_self fun m member => readMail_of_skips (all m member)
  have turned := turnPage_of_stays (w := w.opened page) page w.position.atDate free stays
  rw [readPage_eq listed, same, turned]
  simp [Walk.opened, Walk.counted]

theorem closeSearch_of_none (free : w.suspect = none) : closeSearch env w = w := by
  unfold closeSearch
  rw [free]

theorem blocked_closeSearch (env : Environment) {suspect : Suspect} (found : w.suspect = some suspect) : (closeSearch env w).blocked = true := by
  unfold closeSearch
  rw [found]
  dsimp only
  split_ifs <;> rfl

theorem clearRetry_eq (w : Walk) : clearRetry w = { w with retry := (clearRetry w).retry } := by
  unfold clearRetry
  split_ifs <;> rfl

theorem free_of_closed (free : (clearRetry (closeSearch env w)).blocked = false) : w.suspect = none := by
  cases found : w.suspect with
  | none => rfl
  | some suspect =>
    rw [clearRetry_eq] at free
    exact absurd (free.symm.trans (blocked_closeSearch env found)) Bool.false_ne_true

theorem answers_pollMailboxCursor (env : Environment) (s : Saved) :
    (pollMailboxCursor env s).answers = ((pageLoop env).run (.start s)).answers := by
  unfold pollMailboxCursor
  generalize (pageLoop env).run (.start s) = w
  have closed : (closeSearch env w).answers = w.answers := by
    unfold closeSearch
    split
    · rfl
    · dsimp only
      split_ifs <;> rfl
  rw [clearRetry_eq, ← closed]
  unfold valve
  split_ifs <;> rfl

end

end Opale.EmailBridge.PollCursor
