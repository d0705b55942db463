import Opale.EmailBridge.PollSkips

namespace Opale.EmailBridge.PollCursor

/-- The mail is to fail again in this tick, as the suspect for which a position has been kept. -/
structure Resumes (env : Environment) (w : Walk) (m : Message) (r : Retry) (scan : Scan) : Prop where
  handled : m.toProcess = true
  fails : ∀ n memo, (env.handle n m memo).Fails
  free : w.suspect = none
  retry : w.retry = some r
  id : r.id = m.id
  attempts : MAX_INGEST_ATTEMPTS ≤ r.attempts + 1
  aged : MIN_POISON_AGE_MS ≤ env.now w.clock - r.firstAt
  found : w.scan = some scan
  same : scan.id = m.id

/-- The suspect that comes of it, one attempt later. -/
structure Suspect.Again (p : Position) (m : Message) (r : Retry) (suspect : Suspect) : Prop where
  message : suspect.message = m
  rollback : suspect.rollback = p
  jumped : suspect.jumped = true
  id : suspect.record.id = m.id
  attempts : suspect.record.attempts = r.attempts + 1
  firstAt : suspect.record.firstAt = r.firstAt

/-- The walk has found the suspect and goes on from the position kept. -/
structure Walk.Resumed (w w₁ : Walk) (m : Message) (r : Retry) (scan : Scan) (page : Page) : Prop where
  position : w₁.position = scan.position
  listFrom : w₁.listFrom = scan.position.atDate
  nextLink : w₁.nextLink = none
  graphNext : w₁.graphNext.isSome = true
  jumpTo : w₁.jumpTo = none
  blocked : w₁.blocked = false
  progressed : w₁.progressed = w.progressed
  pages : w₁.pages = w.pages + 1
  skipPages : w₁.skipPages = w.skipPages
  processed : w₁.processed = w.processed + 1
  suspect : ∃ suspect, w₁.suspect = some suspect ∧ suspect.Again w.position m r
  answers : ∃ a, a.Fails ∧ w₁.answers = w.answers ++ [a]
  reads : w₁.reads = w.reads ++ [⟨page.scanned, w.position.done⟩]

/-- A later mail has written, and the walk goes back to just after the suspect. -/
structure Walk.Returned (w w₁ : Walk) (suspect : Suspect) (page : Page) : Prop where
  position : w₁.position = suspect.back
  listFrom : w₁.listFrom = suspect.back.atDate
  nextLink : w₁.nextLink = none
  graphNext : w₁.graphNext.isSome = true
  jumpTo : w₁.jumpTo = none
  blocked : w₁.blocked = false
  progressed : w₁.progressed = w.progressed
  suspect : w₁.suspect = none
  pages : w₁.pages = w.pages + 1
  skipPages : w₁.skipPages = w.skipPages
  processed : w₁.processed = w.processed + 1
  reads : w₁.reads = w.reads ++ [⟨page.scanned, w.position.done⟩]

section

variable {env : Environment} {w : Walk} {m : Message} {r : Retry} {scan : Scan} {page : Page}

theorem readMail_resumes (resumes : Resumes env w m r scan) (new : ¬w.position.Skips m) :
    ∃ a suspect, a.Fails ∧ suspect.Again w.position m r ∧ readMail env m w = .done
      { w.noting [a] (w.processed + 1) with
        suspect := some suspect, scan := none, clock := w.clock + 1, jumpTo := some scan.position } := by
  obtain ⟨error, memo, answer⟩ := resumes.fails w.answers.length r.memo
  have same : w.retry.filter (·.id = m.id) = some r := by
    rw [resumes.retry, Option.filter_some, if_pos (decide_eq_true resumes.id)]
  have kept : w.scan.filter (·.id = m.id) = some scan := by
    rw [resumes.found, Option.filter_some, if_pos (decide_eq_true resumes.same)]
  have often : ¬r.attempts + 1 < MAX_INGEST_ATTEMPTS := Int.not_lt.mpr resumes.attempts
  have aged : ¬env.now w.clock - r.firstAt < MIN_POISON_AGE_MS := Int.not_lt.mpr resumes.aged
  refine ⟨.retry error memo, ⟨m, scan.since, w.position,
    ⟨m.id, m.internetMessageId, r.attempts + 1, errorText error, r.firstAt, memo <|> r.memo, r.alerted⟩, true⟩,
    ⟨error, memo, rfl⟩, ⟨rfl, rfl, rfl, rfl, rfl, rfl⟩, ?_⟩
  unfold readMail
  rw [if_neg (show ¬(m.date ≤ w.position.atDate ∧ m.id ∈ w.position.done) from new)]
  simp only [resumes.handled, if_true, resumes.free, same, Option.bind_some, answer]
  simp only [failed, same, Option.elim_some, if_neg often, Option.isNone_some, Bool.toNat_false, Nat.add_zero, if_neg aged]
  simp only [suspected, kept, Option.elim_some, Option.isSome_some, Option.isNone_some, Bool.toNat_false, Nat.add_zero]
  rfl

/-- The page with the suspect, read as far as the suspect. -/
theorem readPage_resumes {before after : List Message} (resumes : Resumes env w m r scan) (new : ¬w.position.Skips m)
    (free : w.blocked = false) (listed : env.list w.listings w.listFrom w.nextLink = some page)
    (whole : page.scanned = before ++ m :: after) (skips : ∀ m ∈ before, w.position.Skips m) :
    ∃ w₁, readPage env w = .yield w₁ ∧ w.Resumed w₁ m r scan page := by
  have opened : Resumes env (w.opened page) m r scan :=
    ⟨resumes.handled, resumes.fails, resumes.free, resumes.retry, resumes.id, resumes.attempts, resumes.aged, resumes.found,
      resumes.same⟩
  obtain ⟨a, suspect, fails, again, read⟩ := readMail_resumes opened new
  have turned := turnPage_of_jump page w.position.atDate (p := scan.position)
    (w := { (w.opened page).noting [a] ((w.opened page).processed + 1) with
      suspect := some suspect, scan := none, clock := (w.opened page).clock + 1, jumpTo := some scan.position }) free rfl
  rw [readPage_new listed whole skips, forOf_of_done read]
  exact ⟨_, turned, ⟨rfl, rfl, rfl, rfl, rfl, free, rfl, rfl, rfl, rfl, ⟨suspect, rfl, again⟩, ⟨a, fails, rfl⟩, rfl⟩⟩

theorem readMail_verdict {suspect : Suspect} (found : w.suspect = some suspect) (handled : m.toProcess = true)
    (new : ¬w.position.Skips m) (writes : ∀ n memo, (env.handle n m memo).Writes) :
    readMail env m w = verdict suspect m (w.noting [.settled true] (w.processed + 1)) := by
  have answer := writes w.answers.length ((w.retry.filter (·.id = m.id)).bind (·.memo))
  unfold Answer.Writes at answer
  unfold readMail
  rw [if_neg (show ¬(m.date ≤ w.position.atDate ∧ m.id ∈ w.position.done) from new)]
  simp only [handled, if_true, found, answer]
  rfl

/-- A later mail writes: the walk goes back to just after the suspect. -/
theorem readPage_back {before after : List Message} {suspect : Suspect} (found : w.suspect = some suspect)
    (jumped : suspect.jumped = true) (handled : m.toProcess = true) (new : ¬w.position.Skips m)
    (writes : ∀ n memo, (env.handle n m memo).Writes) (free : w.blocked = false)
    (listed : env.list w.listings w.listFrom w.nextLink = some page)
    (whole : page.scanned = before ++ m :: after) (skips : ∀ m ∈ before, w.position.Skips m) :
    ∃ w₁, readPage env w = .yield w₁ ∧ w.Returned w₁ suspect page := by
  have read := readMail_verdict (w := w.opened page) found handled new writes
  unfold verdict at read
  simp only [jumped, if_true] at read
  rw [readPage_new listed whole skips, forOf_of_done read]
  exact ⟨_, turnPage_of_jump page w.position.atDate (p := suspect.back) free rfl, ⟨rfl, rfl, rfl, rfl, rfl, free, rfl, rfl, rfl, rfl, rfl, rfl⟩⟩

end

end Opale.EmailBridge.PollCursor
