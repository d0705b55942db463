import Opale.Sql.Store

namespace Opale.Sql

namespace Schema

variable {Stmt : Type} {Ans : Stmt → Type} {Db Change Lock Draw : Type}
variable {schema : Schema Ans Db Change Lock Draw} {st st₁ st₂ : Store Db Change Lock}
variable {t u : Nat} {P Q : Change → Prop}

@[simp] theorem applyAll_nil (db : Db) : schema.applyAll [] db = db := rfl

@[simp] theorem applyAll_cons (c : Change) (cs : List Change) (db : Db) :
    schema.applyAll (c :: cs) db = schema.applyAll cs (schema.apply c db) := rfl

theorem applyAll_append (cs ds : List Change) (db : Db) :
    schema.applyAll (cs ++ ds) db = schema.applyAll ds (schema.applyAll cs db) := List.foldl_append

theorem apply_applyAll (c : Change) (ds : List Change)
    (apart : ∀ d ∈ ds, ∀ k ∈ schema.locks c, k ∉ schema.locks d) (db : Db) :
    schema.apply c (schema.applyAll ds db) = schema.applyAll ds (schema.apply c db) := by
  induction ds generalizing db with
  | nil => rfl
  | cons d ds ih =>
    have here := schema.commute c d db (apart d List.mem_cons_self)
    rw [applyAll_cons, applyAll_cons, ih fun e member => apart e (List.mem_cons_of_mem d member), here]

/-- Two transactions that lock different rows may be applied in any order. -/
theorem applyAll_comm (cs ds : List Change)
    (apart : ∀ c ∈ cs, ∀ d ∈ ds, ∀ k ∈ schema.locks c, k ∉ schema.locks d) (db : Db) :
    schema.applyAll cs (schema.applyAll ds db) = schema.applyAll ds (schema.applyAll cs db) := by
  induction cs generalizing db with
  | nil => rfl
  | cons c cs ih =>
    have here := apply_applyAll c ds (apart c List.mem_cons_self) db
    rw [applyAll_cons, applyAll_cons, here, ih fun e member => apart e (List.mem_cons_of_mem c member)]

/-- A transaction owns the locks of everything it has written. -/
def Locked (schema : Schema Ans Db Change Lock Draw) (st : Store Db Change Lock) : Prop :=
  ∀ t s, st.session t = some s → ∀ c ∈ s.changes, ∀ k ∈ schema.locks c, st.owner k = some t

theorem locked_start (db : Db) : schema.Locked (.start db) := by
  intro t s opened
  cases opened

theorem Locked.publish (locked : schema.Locked st) (changes : List Change) :
    schema.Locked (schema.publish changes st) := locked

theorem Locked.openTx (locked : schema.Locked st) (t : Nat) : schema.Locked (st.openTx t) := by
  unfold Store.openTx
  split
  · intro u s opened c member
    by_cases same : u = t
    · subst same
      cases (Function.update_self ..).symm.trans opened
      exact absurd member List.not_mem_nil
    · exact locked u s ((Function.update_of_ne same ..).symm.trans opened) c member
  · exact locked

theorem Locked.fail (locked : schema.Locked st) (t : Nat) : schema.Locked (st.fail t) := by
  intro u s opened
  by_cases same : u = t
  · subst same
    have here := (Function.update_self ..).symm.trans opened
    obtain ⟨s₀, before, rfl⟩ := Option.map_eq_some_iff.mp here
    exact locked u s₀ before
  · exact locked u s ((Function.update_of_ne same ..).symm.trans opened)

theorem Locked.close (locked : schema.Locked st) (t : Nat) : schema.Locked (st.close t) := by
  intro u s opened c member k needed
  by_cases same : u = t
  · subst same
    cases (Function.update_self ..).symm.trans opened
  · have owns := locked u s ((Function.update_of_ne same ..).symm.trans opened) c member k needed
    have apart : st.owner k ≠ some t := fun mine => same (Option.some.inj (owns.symm.trans mine))
    exact (if_neg apart).trans owns

theorem Locked.write [DecidableEq Lock] (locked : schema.Locked st) {changes : List Change} {ks : List Lock}
    (free : st.Free (some t) ks) (covered : ∀ c ∈ changes, ∀ k ∈ schema.locks c, k ∈ ks) :
    schema.Locked (st.write t changes ks) := by
  intro u s opened c member k needed
  by_cases same : u = t
  · subst same
    have here := (Function.update_self ..).symm.trans opened
    obtain ⟨s₀, before, rfl⟩ := Option.map_eq_some_iff.mp here
    rcases List.mem_append.mp member with old | new
    · by_cases inside : k ∈ ks
      · exact if_pos inside
      · exact (if_neg inside).trans (locked u s₀ before c old k needed)
    · exact if_pos (covered c new k needed)
  · have owns := locked u s ((Function.update_of_ne same ..).symm.trans opened) c member k needed
    have outside : k ∉ ks := by
      intro inside
      rcases free k inside with nobody | mine
      · rw [nobody] at owns
        cases owns
      · exact same (Option.some.inj (owns.symm.trans mine))
    exact (if_neg outside).trans owns

theorem mem_needs {α : Type} {out : Outcome Change Lock α} {c : Change} (member : c ∈ out.changes) {k : Lock}
    (needed : k ∈ schema.locks c) : k ∈ schema.needs out :=
  List.mem_append_right _ (List.mem_flatMap.mpr ⟨c, member, needed⟩)

/-- What the connection `t` sees of the others: its own transaction and locks stay, and
what is committed moves by changes with `P` that it has not locked. -/
structure Moves (schema : Schema Ans Db Change Lock Draw) (P : Change → Prop) (t : Nat)
    (st st₁ : Store Db Change Lock) : Prop where
  session : st₁.session t = st.session t
  owner : ∀ k, st.owner k = some t → st₁.owner k = some t
  committed : ∃ ds, (∀ d ∈ ds, P d ∧ ∀ k ∈ schema.locks d, st.owner k ≠ some t) ∧
    st₁.committed = schema.applyAll ds st.committed

theorem Moves.refl (P : Change → Prop) (t : Nat) (st : Store Db Change Lock) : schema.Moves P t st st :=
  ⟨rfl, fun _ owns => owns, [], fun _ member => absurd member List.not_mem_nil, rfl⟩

theorem Moves.trans (first : schema.Moves P t st st₁) (second : schema.Moves P t st₁ st₂) :
    schema.Moves P t st st₂ := by
  obtain ⟨session, owner, ds, allowed, committed⟩ := first
  obtain ⟨session₁, owner₁, es, allowed₁, committed₁⟩ := second
  refine ⟨session₁.trans session, fun k owns => owner₁ k (owner k owns), ds ++ es, fun d member => ?_, ?_⟩
  · rcases List.mem_append.mp member with old | new
    · exact allowed d old
    · exact ⟨(allowed₁ d new).1, fun k needed owns => (allowed₁ d new).2 k needed (owner k owns)⟩
  · rw [committed₁, committed, applyAll_append]

/-- What a transaction sees moves by the same changes as what is committed. -/
theorem Moves.view (moves : schema.Moves P t st st₁) (locked : schema.Locked st) :
    ∃ ds, (∀ d ∈ ds, P d ∧ ∀ k ∈ schema.locks d, st.owner k ≠ some t) ∧
      st₁.committed = schema.applyAll ds st.committed ∧
      schema.view st₁ t = schema.applyAll ds (schema.view st t) := by
  obtain ⟨session, owner, ds, allowed, committed⟩ := moves
  refine ⟨ds, allowed, committed, ?_⟩
  unfold Schema.view
  rw [session, committed]
  refine applyAll_comm _ ds (fun c member d inside k needed taken => ?_) st.committed
  cases opened : st.session t with
  | none =>
    rw [opened] at member
    exact absurd member List.not_mem_nil
  | some s =>
    rw [opened] at member
    exact (allowed d inside).2 k taken (locked t s opened c member k needed)

theorem moves_publish {changes : List Change} (allowed : ∀ c ∈ changes, P c)
    (unlocked : ∀ c ∈ changes, ∀ k ∈ schema.locks c, st.owner k ≠ some u) :
    schema.Moves P u st (schema.publish changes st) :=
  ⟨rfl, fun _ owns => owns, changes, fun c member => ⟨allowed c member, unlocked c member⟩, rfl⟩

/-- A statement by itself that found its locks free. -/
theorem moves_query {α : Type} {out : Outcome Change Lock α} (free : st.Free none (schema.needs out))
    (allowed : ∀ c ∈ out.changes, P c) : schema.Moves P u st (schema.publish out.changes st) := by
  refine moves_publish allowed fun c member k needed owns => ?_
  rcases free k (mem_needs member needed) with nobody | nobody
  · rw [nobody] at owns
    cases owns
  · rw [nobody] at owns
    cases owns

theorem moves_openTx (other : u ≠ t) : schema.Moves P u st (st.openTx t) := by
  unfold Store.openTx
  split
  · exact ⟨Function.update_of_ne other .., fun _ owns => owns, [], fun _ member => absurd member List.not_mem_nil, rfl⟩
  · exact .refl P u st

theorem moves_fail (other : u ≠ t) : schema.Moves P u st (st.fail t) :=
  ⟨Function.update_of_ne other .., fun _ owns => owns, [], fun _ member => absurd member List.not_mem_nil, rfl⟩

theorem moves_close (other : u ≠ t) : schema.Moves P u st (st.close t) := by
  refine ⟨Function.update_of_ne other .., fun k owns => ?_, [], fun _ member => absurd member List.not_mem_nil, rfl⟩
  have apart : st.owner k ≠ some t := fun mine => other (Option.some.inj (owns.symm.trans mine))
  exact (if_neg apart).trans owns

theorem moves_write [DecidableEq Lock] (other : u ≠ t) {changes : List Change} {ks : List Lock}
    (free : st.Free (some t) ks) : schema.Moves P u st (st.write t changes ks) := by
  refine ⟨Function.update_of_ne other .., fun k owns => ?_, [], fun _ member => absurd member List.not_mem_nil, rfl⟩
  have outside : k ∉ ks := by
    intro inside
    rcases free k inside with nobody | mine
    · rw [nobody] at owns
      cases owns
    · exact other (Option.some.inj (owns.symm.trans mine))
  exact (if_neg outside).trans owns

/-- A transaction that commits: what it wrote was locked by nobody else. -/
theorem moves_commit (other : u ≠ t) (locked : schema.Locked st) {changes : List Change} {failed : Bool}
    (opened : st.session t = some ⟨changes, failed⟩) (allowed : ∀ c ∈ changes, P c) :
    schema.Moves P u st ((schema.publish changes st).close t) := by
  have published : schema.Moves P u st (schema.publish changes st) := by
    refine moves_publish allowed fun c member k needed owns => ?_
    have mine := locked t _ opened c member k needed
    exact other (Option.some.inj (owns.symm.trans mine))
  exact published.trans (moves_close other)

theorem view_of_session {changes : List Change} {failed : Bool} (opened : st.session t = some ⟨changes, failed⟩) :
    schema.view st t = schema.applyAll changes st.committed := by
  unfold Schema.view
  rw [opened]
  rfl

theorem session_openTx (idle : st.session t = none) : (st.openTx t).session t = some ⟨[], false⟩ := by
  unfold Store.openTx
  rw [idle]
  exact Function.update_self ..

theorem session_write [DecidableEq Lock] {changes new : List Change} {failed : Bool} {ks : List Lock}
    (opened : st.session t = some ⟨changes, failed⟩) :
    (st.write t new ks).session t = some ⟨changes ++ new, failed⟩ := by
  refine (Function.update_self ..).trans ?_
  rw [opened]
  rfl

theorem session_fail {changes : List Change} {failed : Bool} (opened : st.session t = some ⟨changes, failed⟩) :
    (st.fail t).session t = some ⟨changes, true⟩ := by
  refine (Function.update_self ..).trans ?_
  rw [opened]
  rfl

@[simp] theorem session_close : (st.close t).session t = none := Function.update_self ..

/-- What a transaction sees after one more statement. -/
theorem view_write [DecidableEq Lock] {changes new : List Change} {failed : Bool} {ks : List Lock}
    (opened : st.session t = some ⟨changes, failed⟩) :
    schema.view (st.write t new ks) t = schema.applyAll new (schema.view st t) := by
  rw [view_of_session (session_write opened), view_of_session opened, applyAll_append]
  rfl

/-- A statement of a transaction that is in order. -/
theorem exec_within [DecidableEq Lock] {changes : List Change} {s : Stmt} {answer : Option (Ans s)}
    (opened : st.session t = some ⟨changes, false⟩) : schema.exec t (.within s) st answer st₁ ↔
      (∃ draw out, schema.run s draw (schema.view st t) = some out ∧ st.Free (some t) (schema.needs out) ∧
        answer = some out.answer ∧ st₁ = st.write t out.changes (schema.needs out)) ∨
      answer = none ∧ st₁ = st.fail t := by
  simp only [exec]
  rw [opened]

theorem exec_commit [DecidableEq Lock] {changes : List Change} {ok : Bool}
    (opened : st.session t = some ⟨changes, false⟩) : schema.exec t .commit st ok st₁ ↔
      st₁ = (schema.publish changes st).close t ∨ ok = false ∧ st₁ = st.close t := by
  simp only [exec]
  rw [opened]

/-- An operation on an open transaction that publishes nothing. -/
def Inside : SqlOp Stmt → Prop
  | .begin | .within _ | .rollback => True
  | .query _ | .commit => False

theorem committed_inside [DecidableEq Lock] {o : SqlOp Stmt} {answer : o.Res Ans} (inside : Inside o)
    (run : schema.exec t o st answer st₁) : st₁.committed = st.committed := by
  cases o with
  | query s => exact absurd inside id
  | commit => exact absurd inside id
  | rollback =>
    cases run
    rfl
  | begin =>
    rcases run with ⟨-, rfl⟩ | ⟨-, rfl⟩
    · unfold Store.openTx
      split <;> rfl
    · rfl
  | within s =>
    simp only [exec] at run
    split at run
    · rcases run with ⟨draw, out, -, -, -, rfl⟩ | ⟨-, rfl⟩ <;> rfl
    · obtain ⟨-, rfl⟩ := run
      rfl

/-- A COMMIT is carried out, or it changes nothing. -/
theorem committed_commit [DecidableEq Lock] {ok : Bool} (run : schema.exec t .commit st ok st₁) :
    st₁.committed = schema.view st t ∨ st₁.committed = st.committed := by
  simp only [exec] at run
  split at run
  case h_1 changes opened =>
    obtain rfl | ⟨-, rfl⟩ := run
    · exact .inl (view_of_session opened).symm
    · exact .inr rfl
  case h_2 =>
    rw [run]
    exact .inr rfl

theorem exec_inside [DecidableEq Lock] {o : SqlOp Stmt} {answer : o.Res Ans} (inside : Inside o)
    (locked : schema.Locked st) (run : schema.exec t o st answer st₁) :
    st₁.committed = st.committed ∧ schema.Locked st₁ ∧ ∀ u, u ≠ t → schema.Moves P u st st₁ := by
  refine ⟨committed_inside inside run, ?_⟩
  have same : schema.Locked st ∧ ∀ u, u ≠ t → schema.Moves P u st st := ⟨locked, fun u _ => .refl P u st⟩
  cases o with
  | query s => exact absurd inside id
  | commit => exact absurd inside id
  | rollback =>
    cases run
    exact ⟨locked.close t, fun u other => moves_close other⟩
  | begin =>
    rcases run with ⟨-, rfl⟩ | ⟨-, rfl⟩
    · exact ⟨locked.openTx t, fun u other => moves_openTx other⟩
    · exact same
  | within s =>
    simp only [exec] at run
    split at run
    · rcases run with ⟨draw, out, -, free, -, rfl⟩ | ⟨-, rfl⟩
      · exact ⟨locked.write free fun c member k needed => mem_needs member needed, fun u other => moves_write other free⟩
      · exact ⟨locked.fail t, fun u other => moves_fail other⟩
    · obtain ⟨-, rfl⟩ := run
      exact same

/-- What any operation of the connection `t` is to the others. -/
theorem exec_moves [DecidableEq Lock] {o : SqlOp Stmt} {answer : o.Res Ans} (locked : schema.Locked st)
    (run : schema.exec t o st answer st₁) :
    schema.Locked st₁ ∧ ∀ u, u ≠ t → schema.Moves (fun _ => True) u st st₁ := by
  cases o with
  | begin => exact (exec_inside (o := .begin) trivial locked run).2
  | within s => exact (exec_inside (o := .within s) trivial locked run).2
  | rollback => exact (exec_inside (o := .rollback) trivial locked run).2
  | query s =>
    obtain ⟨draw, out, -, free, -, rfl⟩ | ⟨-, rfl⟩ := run
    · exact ⟨locked.publish _, fun u _ => moves_query free fun _ _ => trivial⟩
    · exact ⟨locked, fun u _ => .refl _ u _⟩
  | commit =>
    have closed : schema.Locked (st.close t) ∧ ∀ u, u ≠ t → schema.Moves (fun _ => True) u st (st.close t) :=
      ⟨locked.close t, fun u other => moves_close other⟩
    simp only [exec] at run
    split at run
    case h_1 changes opened =>
      obtain rfl | ⟨-, rfl⟩ := run
      · exact ⟨(locked.publish _).close t, fun u other => moves_commit other locked opened fun _ _ => trivial⟩
      · exact closed
    case h_2 =>
      cases run
      exact closed

/-- No operation of the connection `t` gives a lock to another. -/
theorem owner_exec [DecidableEq Lock] {o : SqlOp Stmt} {answer : o.Res Ans} {k : Lock} (other : u ≠ t)
    (run : schema.exec t o st answer st₁) (owns : st₁.owner k = some u) : st.owner k = some u := by
  have closed {st : Store Db Change Lock} (owns : (st.close t).owner k = some u) : st.owner k = some u := by
    by_cases mine : st.owner k = some t
    · cases (if_pos mine).symm.trans owns
    · exact (if_neg mine).symm.trans owns
  cases o with
  | query s =>
    obtain ⟨draw, out, -, -, -, rfl⟩ | ⟨-, rfl⟩ := run
    · exact owns
    · exact owns
  | begin =>
    obtain ⟨-, rfl⟩ | ⟨-, rfl⟩ := run
    · unfold Store.openTx at owns
      split at owns
      · exact owns
      · exact owns
    · exact owns
  | within s =>
    simp only [exec] at run
    split at run
    · obtain ⟨draw, out, -, -, -, rfl⟩ | ⟨-, rfl⟩ := run
      · by_cases inside : k ∈ schema.needs out
        · have mine : some t = some u := (if_pos inside).symm.trans owns
          exact absurd (Option.some.inj mine).symm other
        · exact (if_neg inside).symm.trans owns
      · exact owns
    · obtain ⟨-, rfl⟩ := run
      exact owns
  | commit =>
    simp only [exec] at run
    split at run
    · obtain rfl | ⟨-, rfl⟩ := run
      · exact closed owns
      · exact closed owns
    · cases run
      exact closed owns
  | rollback =>
    cases run
    exact closed owns

theorem owner_write [DecidableEq Lock] {changes : List Change} {ks : List Lock} {k : Lock}
    (owns : st.owner k = some t ∨ k ∈ ks) : (st.write t changes ks).owner k = some t := by
  by_cases inside : k ∈ ks
  · exact if_pos inside
  · exact (if_neg inside).trans (owns.resolve_right inside)

/-- A connection that is alone finds every lock free, its own ones included. -/
theorem free_write [DecidableEq Lock] (free : ∀ ks, st.Free (some t) ks) (changes : List Change) (ks ls : List Lock) :
    (st.write t changes ks).Free (some t) ls := by
  intro k member
  by_cases inside : k ∈ ks
  · exact .inr (if_pos inside)
  · exact (free ls k member).imp (if_neg inside).trans (if_neg inside).trans

/-- The open transactions have only written changes of one kind. -/
def Written (P : Change → Prop) (st : Store Db Change Lock) : Prop :=
  ∀ t s, st.session t = some s → ∀ c ∈ s.changes, P c

theorem Written.update {x : Option (Session Change)} (written : Written P st)
    (here : ∀ s, x = some s → ∀ c ∈ s.changes, P c) (session : st₁.session = Function.update st.session t x) :
    Written P st₁ := by
  intro u s opened
  rw [session] at opened
  by_cases mine : u = t
  · subst mine
    rw [Function.update_self] at opened
    exact here s opened
  · rw [Function.update_of_ne mine] at opened
    exact written u s opened

theorem Written.close (written : Written P st) (t : Nat) : Written P (st.close t) := by
  refine written.update (fun s gone => ?_) rfl
  cases gone

theorem Written.openTx (written : Written P st) (t : Nat) : Written P (st.openTx t) := by
  unfold Store.openTx
  split
  · refine written.update (fun s opened c member => ?_) rfl
    cases opened
    exact absurd member List.not_mem_nil
  · exact written

theorem Written.fail (written : Written P st) (t : Nat) : Written P (st.fail t) := by
  refine written.update (fun s failed => ?_) rfl
  obtain ⟨before, opened, rfl⟩ := Option.map_eq_some_iff.mp failed
  exact written t before opened

theorem Written.write [DecidableEq Lock] {changes : List Change} (written : Written P st) (t : Nat) (ks : List Lock)
    (all : ∀ c ∈ changes, P c) : Written P (st.write t changes ks) := by
  refine written.update (fun s wrote c member => ?_) rfl
  obtain ⟨before, opened, rfl⟩ := Option.map_eq_some_iff.mp wrote
  rcases List.mem_append.mp member with old | new
  · exact written t before opened c old
  · exact all c new

/-- What a transaction may write is decided by its statements. -/
theorem Written.exec [DecidableEq Lock] {o : SqlOp Stmt} {answer : o.Res Ans} (written : Written P st)
    (run : schema.exec t o st answer st₁)
    (allowed : ∀ s draw db out, o = .within s → schema.run s draw db = some out → ∀ c ∈ out.changes, P c) :
    Written P st₁ := by
  cases o with
  | query s =>
    obtain ⟨draw, out, -, -, -, rfl⟩ | ⟨-, rfl⟩ := run
    · exact written
    · exact written
  | begin =>
    obtain ⟨-, rfl⟩ | ⟨-, rfl⟩ := run
    · exact written.openTx t
    · exact written
  | rollback =>
    cases run
    exact written.close t
  | commit =>
    have published : ∀ changes, Written P (schema.publish changes st) := fun _ => written
    simp only [Schema.exec] at run
    split at run
    · obtain rfl | ⟨-, rfl⟩ := run
      · exact (published _).close t
      · exact written.close t
    · cases run
      exact written.close t
  | within s =>
    simp only [Schema.exec] at run
    split at run
    · obtain ⟨draw, out, ran, -, -, rfl⟩ | ⟨-, rfl⟩ := run
      · exact written.write t _ (allowed s draw _ out rfl ran)
      · exact written.fail t
    · obtain ⟨-, rfl⟩ := run
      exact written

end Schema

end Opale.Sql
