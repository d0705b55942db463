import Opale.EmailBridge.Threading

namespace Opale.EmailBridge

open Js

/-- An identifier in its canonical form: angle brackets around a text that has none, nor spaces at its ends. -/
def Canonical (id : Units) : Prop := ∃ x, id = 60 :: x ++ [62] ∧ x ≠ [] ∧ trimUnits x = x ∧ 60 ∉ x ∧ 62 ∉ x

/-- The elements of a list, each of them once, by their first places. -/
structure Distinct (all l : List Units) : Prop where
  nodup : l.Nodup
  mem_iff : ∀ id, id ∈ l ↔ id ∈ all
  ordered : l.Pairwise fun a b => all.idxOf a < all.idxOf b

variable {s x : Units} {id : Units} {ids done all l : List Units} {header : Option Units}

theorem trimUnits_subset : trimUnits s ⊆ s :=
  ((List.rdropWhile_prefix _ _).sublist.trans (List.dropWhile_sublist _)).subset

theorem trimUnits_trimUnits (s : Units) : trimUnits (trimUnits s) = trimUnits s := trimUnits_self head_trimUnits last_trimUnits

theorem messageIdAt_some {rest : Units} (found : messageIdAt s = some (x, rest)) : 60 ∉ x ∧ 62 ∉ x := by
  unfold messageIdAt at found
  split at found
  · cases found
  next u s =>
    split at found
    · cases found
    · dsimp only at found
      split at found
      next v rest₁ left =>
        split at found
        next =>
          cases found
          constructor <;>
          · intro inside
            have plain := List.mem_takeWhile_imp inside
            simp at plain
        next => cases found
      next => cases found

theorem canonical_bracketedIds : ∀ id ∈ bracketedIds s, Canonical id := by
  intro id member
  obtain ⟨mapped, long⟩ := List.mem_filter.mp member
  obtain ⟨x, captured, rfl⟩ := List.mem_map.mp mapped
  obtain ⟨left, right⟩ := Matcher.forall_captures (fun _ _ _ => messageIdAt_some) x captured
  refine ⟨trimUnits x, rfl, ?_, trimUnits_trimUnits x, fun inside => left (trimUnits_subset inside),
    fun inside => right (trimUnits_subset inside)⟩
  intro empty
  rw [empty] at long
  simp at long

theorem normalizeMessageId_bare (some_ : trimUnits s ≠ []) (left : 60 ∉ trimUnits s) :
    normalizeMessageId (some (trimUnits s)) = some (60 :: trimUnits s ++ [62]) := by
  have starts : (trimUnits s).head? ≠ some 60 := fun first => left (List.mem_of_head? first)
  simp only [normalizeMessageId, trimUnits_trimUnits, if_neg some_]
  rw [if_neg fun both => starts both.1]

theorem canonical_messageIds : ∀ id ∈ messageIds header, Canonical id := by
  intro id member
  unfold messageIds at member
  split at member
  · cases member
  next text =>
    dsimp only at member
    split at member
    · cases member
    next some_ =>
      split at member
      next plain =>
        rw [normalizeMessageId_bare some_ plain.2.1] at member
        cases List.mem_singleton.mp member
        exact ⟨trimUnits text, rfl, some_, trimUnits_trimUnits text, plain.2⟩
      next => exact canonical_bracketedIds id member

theorem Distinct.push (so_far : Distinct done l) (id : Units) : Distinct (done ++ [id]) (pushNew l id) := by
  have early {a : Units} (inside : a ∈ l) : (done ++ [id]).idxOf a = done.idxOf a :=
    List.idxOf_append_of_mem ((so_far.mem_iff a).mp inside)
  have kept : l.Pairwise fun a b => (done ++ [id]).idxOf a < (done ++ [id]).idxOf b := by
    refine so_far.ordered.imp_of_mem fun first second less => ?_
    rwa [early first, early second]
  unfold pushNew
  split
  next old =>
    refine ⟨so_far.nodup, fun a => ?_, kept⟩
    rw [List.mem_append, List.mem_singleton, so_far.mem_iff]
    constructor
    · exact .inl
    · rintro (inside | rfl)
      · exact inside
      · exact (so_far.mem_iff a).mp old
  next new =>
    have fresh : id ∉ done := fun inside => new ((so_far.mem_iff id).mpr inside)
    have last : (done ++ [id]).idxOf id = done.length := by
      rw [List.idxOf_append_of_notMem fresh, List.idxOf_cons_self, Nat.add_zero]
    refine ⟨?_, fun a => ?_, ?_⟩
    · exact List.nodup_append.mpr ⟨so_far.nodup, List.nodup_singleton id, fun a inside b same equal => by
        rw [equal, List.mem_singleton.mp same] at inside
        exact new inside⟩
    · rw [List.mem_append, List.mem_append, so_far.mem_iff]
    · refine List.pairwise_append.mpr ⟨kept, List.pairwise_singleton _ _, fun a inside b same => ?_⟩
      rw [List.mem_singleton.mp same, last, early inside]
      exact List.idxOf_lt_length_of_mem ((so_far.mem_iff a).mp inside)

theorem Distinct.foldl (so_far : Distinct done l) (ids : List Units) : Distinct (done ++ ids) (ids.foldl pushNew l) := by
  induction ids generalizing done l with
  | nil => rwa [List.append_nil]
  | cons id ids ih =>
    have more := ih (so_far.push id)
    rwa [List.append_assoc] at more

theorem distinct_nil : Distinct [] [] := ⟨List.nodup_nil, fun _ => Iff.rfl, List.Pairwise.nil⟩

theorem distinct_of_option (o : Option Units) : Distinct o.toList o.toList := by
  cases o with
  | none => exact distinct_nil
  | some id => exact ⟨List.nodup_singleton id, fun _ => Iff.rfl, List.pairwise_singleton _ id⟩

theorem distinct_parseMessageIdList (header : Option Units) : Distinct (messageIds header) (parseMessageIdList header) := by
  unfold messageIds parseMessageIdList
  cases header with
  | none => exact distinct_nil
  | some text =>
    have pushed := distinct_nil.foldl (bracketedIds (trimUnits text))
    have nothing : (bracketedIds (trimUnits text)).foldl pushNew [] = [] ↔ bracketedIds (trimUnits text) = [] := by
      rw [List.eq_nil_iff_forall_not_mem, List.eq_nil_iff_forall_not_mem]
      exact forall_congr' fun id => not_congr (pushed.mem_iff id)
    dsimp only
    split
    · exact distinct_nil
    · simp only [nothing]
      split
      · exact distinct_of_option _
      · exact pushed

/-- The identifiers joined by a space. -/
def joined (ids : List Units) : Units := [32].intercalate ids

theorem messageIdAt_bracketed (left : 60 ∉ x) (right : 62 ∉ x) (some_ : x ≠ []) (rest : Units) :
    MESSAGE_ID_RE.run (60 :: x ++ [62] ++ rest) = some (x, rest) := by
  have inside : ∀ u ∈ x, (u ≠ 60 && u ≠ 62) = true := by
    intro u member
    have first : u ≠ 60 := fun same => left (same ▸ member)
    have second : u ≠ 62 := fun same => right (same ▸ member)
    simp [first, second]
  have taken : (x ++ 62 :: rest).takeWhile (fun u => u ≠ 60 && u ≠ 62) = x := by
    rw [List.takeWhile_append_of_pos inside]
    simp
  have dropped : (x ++ 62 :: rest).dropWhile (fun u => u ≠ 60 && u ≠ 62) = 62 :: rest := by
    rw [List.dropWhile_append_of_pos inside]
    simp
  have whole : 60 :: x ++ [62] ++ rest = 60 :: (x ++ 62 :: rest) := by simp
  have found : messageIdAt (60 :: (x ++ 62 :: rest)) = some (x, rest) := by
    simp only [messageIdAt, taken, dropped]
    simp [some_]
  rw [whole]
  exact found

theorem Canonical.run (canonical : Canonical id) (rest : Units) :
    ∃ x, id = 60 :: x ++ [62] ∧ trimUnits x = x ∧ x ≠ [] ∧ MESSAGE_ID_RE.run (id ++ rest) = some (x, rest) := by
  obtain ⟨x, rfl, some_, trimmed, left, right⟩ := canonical
  exact ⟨x, rfl, trimmed, some_, messageIdAt_bracketed left right some_ rest⟩

theorem bracketedIds_append (canonical : Canonical id) (rest : Units) :
    bracketedIds (id ++ rest) = id :: bracketedIds rest := by
  obtain ⟨x, rfl, trimmed, some_, found⟩ := canonical.run rest
  have long : 2 < (60 :: x ++ [62]).length := by
    have positive := List.length_pos_iff.mpr some_
    simp only [List.cons_append, List.length_cons, List.length_append, List.length_nil]
    omega
  unfold bracketedIds
  rw [Matcher.captures_of_run found, List.map_cons, trimmed, List.filter_cons_of_pos (by simpa using long)]

theorem bracketedIds_nil : bracketedIds [] = [] := by
  rw [bracketedIds, Matcher.captures]
  rfl

theorem bracketedIds_space (rest : Units) : bracketedIds (32 :: rest) = bracketedIds rest := by
  have none_ : MESSAGE_ID_RE.run (32 :: rest) = none := rfl
  rw [bracketedIds, Matcher.captures_cons_of_none none_]
  rfl

theorem joined_cons (id other : Units) (ids : List Units) :
    joined (id :: other :: ids) = id ++ 32 :: joined (other :: ids) := by
  simp [joined, List.intercalate]

theorem joined_singleton (id : Units) : joined [id] = id := by
  simp [joined, List.intercalate]

theorem head?_joined (canonical : ∀ id ∈ ids, Canonical id) (some_ : ids ≠ []) : (joined ids).head? = some 60 := by
  obtain ⟨id, rest, rfl⟩ := List.exists_cons_of_ne_nil some_
  obtain ⟨x, rfl, -⟩ := canonical id List.mem_cons_self
  cases rest with
  | nil =>
    rw [joined_singleton]
    rfl
  | cons other rest =>
    rw [joined_cons]
    rfl

theorem joined_ne_nil (canonical : ∀ id ∈ ids, Canonical id) (some_ : ids ≠ []) : joined ids ≠ [] := by
  intro empty
  have first := head?_joined canonical some_
  rw [empty] at first
  cases first

/-- Canonical identifiers are what is found in their own list. -/
theorem bracketedIds_joined (canonical : ∀ id ∈ ids, Canonical id) : bracketedIds (joined ids) = ids := by
  induction ids with
  | nil => exact bracketedIds_nil
  | cons id ids ih =>
    obtain ⟨here, others⟩ := List.forall_mem_cons.mp canonical
    cases ids with
    | nil =>
      have alone := bracketedIds_append here []
      rw [List.append_nil, bracketedIds_nil] at alone
      rw [joined_singleton, alone]
    | cons other ids => rw [joined_cons, bracketedIds_append here, bracketedIds_space, ih others]

theorem trimUnits_joined (canonical : ∀ id ∈ ids, Canonical id) : trimUnits (joined ids) = joined ids := by
  have ends : ∀ u ∈ (joined ids).getLast?, isSpace u = false := by
    induction ids with
    | nil => nofun
    | cons id ids ih =>
      obtain ⟨here, others⟩ := List.forall_mem_cons.mp canonical
      obtain ⟨x, rfl, -⟩ := here
      cases ids with
      | nil =>
        rw [joined_singleton, List.getLast?_concat]
        exact forall_mem_of_eq_some rfl (by decide)
      | cons other ids =>
        have nonempty := joined_ne_nil others (List.cons_ne_nil _ _)
        rw [joined_cons, List.getLast?_append_of_ne_nil _ (List.cons_ne_nil _ _), List.getLast?_cons_of_ne_nil nonempty]
        exact ih others
  have starts : ∀ u ∈ (joined ids).head?, isSpace u = false := by
    cases ids with
    | nil => nofun
    | cons id ids =>
      exact forall_mem_of_eq_some (head?_joined canonical (List.cons_ne_nil _ _)) (by decide)
  exact trimUnits_self starts ends

theorem parseMessageIdList_joined (canonical : ∀ id ∈ ids, Canonical id) (nodup : ids.Nodup) :
    parseMessageIdList (some (joined ids)) = ids := by
  have pushed (l : List Units) (apart : (l ++ ids).Nodup) : ids.foldl pushNew l = l ++ ids := by
    clear canonical nodup
    induction ids generalizing l with
    | nil => rw [List.append_nil, List.foldl_nil]
    | cons id ids ih =>
      have fresh : id ∉ l := fun inside => (List.nodup_append.mp apart).2.2 id inside id List.mem_cons_self rfl
      rw [List.foldl_cons, pushNew, if_neg fresh, ih (l ++ [id]) (by simpa using apart)]
      simp
  unfold parseMessageIdList
  dsimp only
  rw [trimUnits_joined canonical, bracketedIds_joined canonical, pushed [] nodup, List.nil_append]
  cases ids with
  | nil => rfl
  | cons id ids =>
    rw [if_neg (joined_ne_nil canonical (List.cons_ne_nil _ _)), if_neg fun bare => List.cons_ne_nil _ _ bare.1]

/-- A header is read into distinct identifiers in their canonical form, by their first places, and these are read again
as they are. -/
theorem parseMessageIdList_canonical (header : Option Units) :
    Distinct (messageIds header) (parseMessageIdList header) ∧ (∀ id ∈ parseMessageIdList header, Canonical id) ∧
      parseMessageIdList (some (joined (parseMessageIdList header))) = parseMessageIdList header := by
  have distinct := distinct_parseMessageIdList header
  have canonical : ∀ id ∈ parseMessageIdList header, Canonical id := fun id member =>
    canonical_messageIds id ((distinct.mem_iff id).mp member)
  exact ⟨distinct, canonical, parseMessageIdList_joined canonical distinct.nodup⟩

end Opale.EmailBridge
