/-
# What `FindGroups` does with the entries

Each guid that is taken from the list of new ones ends in the list of current ones, or in a
proposal with others that leave it.  This is how it goes as long as the compatibility of guids is
worked out when it is asked for.  An entry of the cache that says match, or says bad states of
guids that are queued by now, makes `FindNewGroups` return a match without a proposal, and the guid
is lost.  And where `CheckCompatibility` calls itself for the rest of some guids, that may hand a
proposal to the manager which `FindGroups` does not learn of.

A search goes through states of the queue that differ little: it only removes guids which have no
entry.  So what is asked for later is the same as at the start.
-/
import HungerGames.Lfg.Proposals

namespace HungerGames.Lfg

variable {m : Manager} {q q' : LFGQueue}

/-! ## 1. What is to be conserved -/

/-- After `FindGroups` no guid is new, each that was listed and has an entry is current or in one
of the proposals of this call, once, and the number of these is returned. -/
structure Conserved (m : Manager) (q : LFGQueue) : Prop where
  emptied : (q.findGroups m).1.queue.newToQueueStore = []
  once : ∀ guid, guid ∈ q.newToQueueStore ∨ guid ∈ q.currentQueueStore →
    ((q.findGroups m).1.queue.queueDataStore guid).isSome = true →
      (q.findGroups m).1.queue.currentQueueStore.count guid +
        (q.findGroups m).1.proposals.countP (fun p => guid ∈ p.queues) = 1
  counted : (q.findGroups m).2 = (q.findGroups m).1.proposals.length

/-- No guid is listed twice. -/
structure ListedOnce (q : LFGQueue) : Prop where
  nodup : q.currentQueueStore.Nodup
  apart : ∀ guid ∈ q.newToQueueStore, guid ∉ q.currentQueueStore

/-! ## 2. Where a match is found without a proposal -/

def LFGQueue.Verdict.compatibility : LFGQueue.Verdict → LfgCompatibility
  | .notQueued _ => .pending
  | .cached compatibles => compatibles
  | .formed _ => .isMatch

/-- What `CheckCompatibility` returns. -/
def compatibility (m : Manager) (q : LFGQueue) : List ObjectGuid → LfgCompatibility
  | [] => .wrongGroupSize
  | front :: rest =>
    if maxGroupSize < (front :: rest).length then .wrongGroupSize
    else if 2 < (front :: rest).length ∧ ¬ (compatibility m q rest).isCompatible then
      compatibility m q rest
    else (q.verdict m (front :: rest)).compatibility

/-- The cache does not say that the guids are a match, nor bad states when they are queued; and if
it says nothing, no rest of them is a match. -/
structure Fresh (m : Manager) (q : LFGQueue) (check : List ObjectGuid) : Prop where
  noMatch : q.getCompatibles (concatenateGuids check) ≠ .isMatch
  badStates : q.getCompatibles (concatenateGuids check) = .badStates → m.allQueued check = false
  rests : q.getCompatibles (concatenateGuids check) = .pending → check.length ≤ maxGroupSize →
    ∀ rest, rest <:+ check.tail → 2 ≤ rest.length → compatibility m q rest ≠ .isMatch

namespace Search

variable (m : Manager)

mutual

/-- Whatever guids `FindNewGroups` asks the compatibility of, it is found afresh. -/
def FreshSearch (check all : List ObjectGuid) (s : Search) : Prop :=
  Fresh m s.queue check ∧
    ((s.compatibilityOf m check).1 = .withLessPlayers →
      FreshLoop check all (s.compatibilityOf m check).2)
termination_by (all.length, 1)

def FreshLoop (check : List ObjectGuid) : List ObjectGuid → Search → Prop
  | [], _ => True
  | guid :: all, s =>
    FreshSearch (check ++ [guid]) all s ∧
      ((findNewGroups m (check ++ [guid]) all s).1 ≠ .isMatch →
        FreshLoop check (findNewGroups m (check ++ [guid]) all s).2.1.1
          (findNewGroups m (check ++ [guid]) all s).2.2)
termination_by all => (all.length, 0)
decreasing_by
  · exact Prod.Lex.left _ _ (Nat.lt_succ_self _)
  · exact Prod.Lex.left _ _ (Nat.lt_succ_of_le
      (findNewGroups m (check ++ [guid]) all s).2.1.2.length_le)

end

/-- In a turn of `FindGroups` everything is found afresh, and the number goes up by one if it
does. -/
def FreshTurn (frontguid : ObjectGuid) (x : Search × ℕ) : Prop :=
  let s : Search := { x.1 with queue := x.1.queue.removeFromNewQueue frontguid }
  FreshSearch m [frontguid] s.queue.currentQueueStore s ∧
    ((findNewGroups m [frontguid] s.queue.currentQueueStore s).1 = .isMatch → x.2 + 1 < 2 ^ 8)

/-- So it is in each turn. -/
def FreshTurns : ℕ → Search × ℕ → Prop
  | 0, _ => True
  | n + 1, x =>
    match x.1.queue.newToQueueStore with
    | [] => True
    | frontguid :: _ => FreshTurn m frontguid x ∧ FreshTurns n (findTurn m frontguid x)

end Search

/-- Everything that `FindGroups` asks for is found afresh. -/
def FreshFind (m : Manager) (q : LFGQueue) : Prop :=
  Search.FreshTurns m q.newToQueueStore.length (⟨q, []⟩, 0)

/-! ## 3. The search -/

namespace Search

variable {s s' s₁ s₂ : Search}

variable {check : List ObjectGuid}

theorem compatibilityOf_pending (h : s.queue.getCompatibles (concatenateGuids check) = .pending) :
    s.compatibilityOf m check =
      if (checkCompatibility m check s).1 = .badStates ∧ m.allQueued check then
        (.isMatch, (checkCompatibility m check s).2.setCompatibles check .isMatch)
      else checkCompatibility m check s := by
  unfold compatibilityOf
  dsimp only
  rw [if_pos h]

theorem compatibilityOf_cached (h : s.queue.getCompatibles (concatenateGuids check) ≠ .pending) :
    s.compatibilityOf m check =
      if s.queue.getCompatibles (concatenateGuids check) = .badStates ∧ m.allQueued check then
        (.isMatch, s.setCompatibles check .isMatch)
      else (s.queue.getCompatibles (concatenateGuids check), s) := by
  unfold compatibilityOf
  dsimp only
  rw [if_neg h]

/-- The induction of a search, on the number of guids to match against: `P` is what is shown of
`FindNewGroups`, and `Q` of its loop. -/
theorem search_induction {P Q : List ObjectGuid → List ObjectGuid → Search → Prop}
    (hsearch : ∀ check all s, Q check all (s.compatibilityOf m check).2 → P check all s)
    (hnil : ∀ check s, Q check [] s)
    (hcons : ∀ check guid all s, P (check ++ [guid]) all s →
      Q check (findNewGroups m (check ++ [guid]) all s).2.1.1
        (findNewGroups m (check ++ [guid]) all s).2.2 → Q check (guid :: all) s)
    (check all : List ObjectGuid) (s : Search) : P check all s := by
  have hloop : ∀ n check all s, all.length ≤ n → Q check all s := by
    intro n
    induction n with
    | zero =>
      intro check all s hn
      rw [List.length_eq_zero_iff.mp (Nat.le_zero.mp hn)]
      exact hnil check s
    | succ n ih =>
      intro check all s hn
      cases all with
      | nil => exact hnil check s
      | cons guid all =>
        have hall : all.length ≤ n := Nat.le_of_succ_le_succ hn
        have hrest := (findNewGroups m (check ++ [guid]) all s).2.1.2.length_le.trans hall
        exact hcons check guid all s (hsearch _ _ _ (ih _ _ _ hall)) (ih _ _ _ hrest)
  exact hsearch check all s (hloop all.length _ _ _ le_rfl)

/-- What holds of each step of a search holds of the whole. -/
theorem findNewGroups_steps {R : Search → Search → Prop} (hrefl : ∀ s, R s s)
    (htrans : ∀ {s₁ s₂ s₃}, R s₁ s₂ → R s₂ s₃ → R s₁ s₃)
    (hset : ∀ s check compatibles, R s (s.setCompatibles check compatibles))
    (hthese : ∀ s check, R s (s.checkThese m check).2) (check all : List ObjectGuid) (s : Search) :
    R s (findNewGroups m check all s).2.2 := by
  have hcheck : ∀ check s, R s (checkCompatibility m check s).2 := by
    intro check
    induction check with
    | nil => exact hrefl
    | cons front rest ih =>
      intro s
      unfold checkCompatibility
      split
      · exact hrefl s
      · split
        · dsimp only
          split
          · exact htrans (ih s) (hset _ _ _)
          · exact htrans (ih s) (hthese _ _)
        · exact hthese _ _
  have hfound : ∀ check s, R s (compatibilityOf m s check).2 := by
    intro check s
    by_cases hp : s.queue.getCompatibles (concatenateGuids check) = .pending
    · rw [compatibilityOf_pending hp]
      split
      · exact htrans (hcheck check s) (hset _ _ _)
      · exact hcheck check s
    · rw [compatibilityOf_cached hp]
      split
      · exact hset _ _ _
      · exact hrefl s
  refine search_induction (m := m) (P := fun check all s => R s (findNewGroups m check all s).2.2)
    (Q := fun check all s => R s (matchQueued m check all s).2.2) ?_ ?_ ?_ check all s
  · intro check all s hloop
    rw [findNewGroups]
    split
    · exact hfound check s
    · exact htrans (hfound check s) hloop
  · intro check s
    rw [matchQueued]
    exact hrefl s
  · intro check guid all s hsub hrest
    rw [matchQueued]
    split
    · exact hsub
    · exact htrans hsub hrest

theorem newToQueueStore_checkThese (s : Search) (check : List ObjectGuid) :
    (s.checkThese m check).2.queue.newToQueueStore.Sublist s.queue.newToQueueStore := by
  unfold checkThese
  split
  · exact List.filter_sublist
  · exact List.Sublist.refl _
  · rename_i p _
    unfold propose
    generalize s.queue = q
    induction p.queues generalizing q with
    | nil => exact List.Sublist.refl _
    | cons guid guids ih => exact (ih _).trans List.filter_sublist

/-- A search adds nothing to the list of new guids. -/
theorem newToQueueStore_findNewGroups (check all : List ObjectGuid) (s : Search) :
    (findNewGroups m check all s).2.2.queue.newToQueueStore.Sublist s.queue.newToQueueStore :=
  findNewGroups_steps
    (R := fun s s' => s'.queue.newToQueueStore.Sublist s.queue.newToQueueStore)
    (fun _ => List.Sublist.refl _) (fun h h' => h'.trans h) (fun _ _ _ => List.Sublist.refl _)
    newToQueueStore_checkThese check all s

/-- The guids `gone` leave the lists and the proposals `added` are made; but for that the entries
stay where they are. -/
structure Leaves (gone : List ObjectGuid) (added : List LfgProposal) (s s' : Search) : Prop where
  data : s'.queue.queueDataStore = s.queue.queueDataStore
  proposals : s'.proposals = s.proposals ++ added
  new_of : ∀ guid ∈ s'.queue.newToQueueStore, guid ∈ s.queue.newToQueueStore
  new : ∀ guid, (s.queue.queueDataStore guid).isSome = true →
    (guid ∈ s'.queue.newToQueueStore ↔ guid ∈ s.queue.newToQueueStore ∧ guid ∉ gone)
  current_of : s'.queue.currentQueueStore.Sublist s.queue.currentQueueStore
  current : ∀ guid, (s.queue.queueDataStore guid).isSome = true →
    (guid ∈ s'.queue.currentQueueStore ↔ guid ∈ s.queue.currentQueueStore ∧ guid ∉ gone)

theorem Leaves.refl (s : Search) : Leaves [] [] s s where
  data := rfl
  proposals := (List.append_nil _).symm
  new_of _ h := h
  new _ _ := (and_iff_left List.not_mem_nil).symm
  current_of := List.Sublist.refl _
  current _ _ := (and_iff_left List.not_mem_nil).symm

theorem Leaves.trans {gone : List ObjectGuid} {added : List LfgProposal}
    (h : Leaves [] [] s s₁) (h' : Leaves gone added s₁ s₂) : Leaves gone added s s₂ where
  data := h'.data.trans h.data
  proposals := by rw [h'.proposals, h.proposals, List.append_nil]
  new_of guid hguid := h.new_of guid (h'.new_of guid hguid)
  new guid hguid := by
    rw [h'.new guid (h.data ▸ hguid), h.new guid hguid, and_iff_left List.not_mem_nil]
  current_of := h'.current_of.trans h.current_of
  current guid hguid := by
    rw [h'.current guid (h.data ▸ hguid), h.current guid hguid, and_iff_left List.not_mem_nil]

theorem Leaves.set {gone : List ObjectGuid} {added : List LfgProposal} (h : Leaves gone added s s₁)
    (check : List ObjectGuid) (compatibles : LfgCompatibility) :
    Leaves gone added s (s₁.setCompatibles check compatibles) :=
  ⟨h.data, h.proposals, h.new_of, h.new, h.current_of, h.current⟩

theorem leaves_removeFromQueue {guid : ObjectGuid} (h : s.queue.queueDataStore guid = none) :
    Leaves [] [] s { s with queue := s.queue.removeFromQueue guid } where
  data := Function.update_eq_self_iff.mpr h.symm
  proposals := (List.append_nil _).symm
  new_of _ hguid := (List.mem_filter.mp hguid).1
  new guid' hguid' := by
    have hne : guid' ≠ guid := fun heq => by
      rw [heq, h] at hguid'
      nomatch hguid'
    exact List.mem_filter.trans (and_congr_right fun _ =>
      iff_of_true (decide_eq_true hne) List.not_mem_nil)
  current_of := List.filter_sublist
  current guid' hguid' := by
    have hne : guid' ≠ guid := fun heq => by
      rw [heq, h] at hguid'
      nomatch hguid'
    exact List.mem_filter.trans (and_congr_right fun _ =>
      iff_of_true (decide_eq_true hne) List.not_mem_nil)

theorem lists_propose (guids : List ObjectGuid) (q : LFGQueue) :
    (guids.foldl (fun q guid => (q.removeFromNewQueue guid).removeFromCurrentQueue guid)
        q).newToQueueStore = q.newToQueueStore.filter (· ∉ guids) ∧
      (guids.foldl (fun q guid => (q.removeFromNewQueue guid).removeFromCurrentQueue guid)
        q).currentQueueStore = q.currentQueueStore.filter (· ∉ guids) := by
  induction guids generalizing q with
  | nil => simp
  | cons guid guids ih =>
    have hboth := ih ((q.removeFromNewQueue guid).removeFromCurrentQueue guid)
    rw [List.foldl_cons, hboth.1, hboth.2]
    unfold LFGQueue.removeFromNewQueue LFGQueue.removeFromCurrentQueue
    simp only [List.filter_filter, List.mem_cons, not_or, Bool.decide_and, Bool.and_comm, and_self]

theorem leaves_propose (p : LfgProposal) : Leaves p.queues [p] s (s.propose p) where
  data := queueDataStore_propose p
  proposals := rfl
  new_of guid hguid := by
    rw [propose, (lists_propose _ _).1] at hguid
    exact (List.mem_filter.mp hguid).1
  new guid _ := by
    rw [propose, (lists_propose _ _).1, List.mem_filter, decide_eq_true_iff]
  current_of := by
    rw [propose, (lists_propose _ _).2]
    exact List.filter_sublist
  current guid _ := by
    rw [propose, (lists_propose _ _).2, List.mem_filter, decide_eq_true_iff]

/-- There is no match, and nobody leaves; or there is one, with a proposal for guids that begin
with `check`, go on in `all`, and all have entries. -/
def Outcome (check all : List ObjectGuid) (s : Search) (compatibles : LfgCompatibility)
    (s' : Search) : Prop :=
  compatibles ≠ .isMatch ∧ Leaves [] [] s s' ∨
    compatibles = .isMatch ∧ ∃ p more, p.queues = check ++ more ∧ more.Sublist all ∧
      (∀ guid ∈ p.queues, (s.queue.queueDataStore guid).isSome = true) ∧
        Leaves p.queues [p] s s'

variable {compatibles : LfgCompatibility}

theorem Outcome.after {all : List ObjectGuid} (h : Leaves [] [] s s₁)
    (h' : Outcome check all s₁ compatibles s₂) : Outcome check all s compatibles s₂ := by
  rcases h' with ⟨hne, hleaves⟩ | ⟨heq, p, more, hqueues, hmore, hqueued, hleaves⟩
  · exact Or.inl ⟨hne, h.trans hleaves⟩
  · exact Or.inr ⟨heq, p, more, hqueues, hmore, h.data ▸ hqueued, h.trans hleaves⟩

theorem compatibility_checkThese (check : List ObjectGuid) :
    (s.checkThese m check).1 = (s.queue.verdict m check).compatibility := by
  unfold checkThese
  cases s.queue.verdict m check <;> rfl

/-- A compatibility that is cached is no match, and bad states only when not all are queued. -/
theorem verdict_cached (h : s.queue.verdict m check = .cached compatibles) :
    compatibles ≠ .isMatch ∧ (compatibles = .badStates → m.allQueued check = false) := by
  have hcombine : ∀ n, s.queue.combine m check n = .error compatibles →
      compatibles ≠ .isMatch ∧ compatibles ≠ .badStates := by
    intro n hn
    unfold LFGQueue.combine at hn
    split at hn
    · dsimp only at hn
      split at hn
      · exact Except.error.inj hn ▸ ⟨nofun, nofun⟩
      · split at hn
        · exact Except.error.inj hn ▸ ⟨nofun, nofun⟩
        · split at hn
          · exact Except.error.inj hn ▸ ⟨nofun, nofun⟩
          · nomatch hn
    · nomatch hn
  unfold LFGQueue.verdict at h
  split at h
  · nomatch h
  split at h
  · exact LFGQueue.Verdict.cached.inj h ▸ ⟨nofun, nofun⟩
  split at h
  · exact LFGQueue.Verdict.cached.inj h ▸ ⟨nofun, nofun⟩
  split at h
  · exact LFGQueue.Verdict.cached.inj h ▸ ⟨nofun, nofun⟩
  split at h
  · rename_i found hfound
    obtain ⟨hmatch, hbad⟩ :=
      hcombine _ (hfound.trans (congrArg Except.error (LFGQueue.Verdict.cached.inj h)))
    exact ⟨hmatch, fun heq => absurd heq hbad⟩
  split at h
  · exact LFGQueue.Verdict.cached.inj h ▸ ⟨nofun, nofun⟩
  split at h
  · rename_i hqueued
    exact LFGQueue.Verdict.cached.inj h ▸ ⟨nofun, fun _ => Bool.eq_false_iff.mpr hqueued⟩
  · nomatch h

/-- What the guids themselves come to. -/
theorem outcome_checkThese (check : List ObjectGuid) :
    Outcome check [] s (s.checkThese m check).1 (s.checkThese m check).2 := by
  unfold checkThese
  split
  · rename_i guid h
    exact Or.inl ⟨nofun, leaves_removeFromQueue (verdict_notQueued h)⟩
  · rename_i compatibles h
    exact Or.inl ⟨(verdict_cached h).1, (Leaves.refl s).set check compatibles⟩
  · rename_i p h
    obtain ⟨hqueues, hqueued⟩ := queues_of_verdict h
    exact Or.inr ⟨rfl, p, [], by rw [hqueues, List.append_nil], List.Sublist.refl _,
      hqueues ▸ hqueued, (leaves_propose p).set check .isMatch⟩

theorem compatibility_checkCompatibility (check : List ObjectGuid) : ∀ s : Search,
    (checkCompatibility m check s).1 = compatibility m s.queue check := by
  induction check with
  | nil => exact fun _ => rfl
  | cons front rest ih =>
    intro s
    have hdata := queueDataStore_checkCompatibility (m := m) rest s
    unfold checkCompatibility compatibility
    by_cases hlong : maxGroupSize < (front :: rest).length
    · rw [if_pos hlong, if_pos hlong]
    · rw [if_neg hlong, if_neg hlong]
      by_cases hthree : 2 < (front :: rest).length
      · rw [if_pos hthree]
        dsimp only
        rw [ih s]
        by_cases hchild : (compatibility m s.queue rest).isCompatible = true
        · rw [if_neg (not_not.mpr hchild), if_neg fun h => h.2 hchild, compatibility_checkThese,
            verdict_congr hdata]
        · rw [if_pos hchild, if_pos ⟨hthree, hchild⟩]
      · rw [if_neg hthree, if_neg fun h => hthree h.1]
        exact compatibility_checkThese _

/-- `CheckCompatibility`, where no rest of the guids is a match.  Induction on the guids. -/
theorem outcome_checkCompatibility (check : List ObjectGuid) : ∀ s : Search,
    (check.length ≤ maxGroupSize →
      ∀ rest, rest <:+ check.tail → 2 ≤ rest.length → compatibility m s.queue rest ≠ .isMatch) →
    Outcome check [] s (checkCompatibility m check s).1 (checkCompatibility m check s).2 := by
  induction check with
  | nil => exact fun s _ => Or.inl ⟨LfgCompatibility.noConfusion, Leaves.refl s⟩
  | cons front rest ih =>
    intro s hrests
    unfold checkCompatibility
    split
    · exact Or.inl ⟨LfgCompatibility.noConfusion, Leaves.refl s⟩
    rename_i hlength
    have hrests := hrests (Nat.le_of_not_lt hlength)
    split
    · rename_i hthree
      have htwo : 2 ≤ rest.length := Nat.le_of_lt_succ hthree
      have hchild : Leaves [] [] s (checkCompatibility m rest s).2 := by
        have hne := hrests rest List.suffix_rfl htwo
        rcases ih s fun _ rest' hsuffix => hrests rest' (hsuffix.trans (List.tail_suffix rest)) with
          ⟨-, hleaves⟩ | ⟨heq, -⟩
        · exact hleaves
        · rw [compatibility_checkCompatibility] at heq
          exact absurd heq hne
      dsimp only
      split
      · rename_i hbad
        refine Or.inl ⟨fun heq => hbad ?_, hchild.set _ _⟩
        rw [heq]
        rfl
      · exact (outcome_checkThese _).after hchild
    · exact outcome_checkThese _

/-- Guids with bad states are not all queued. -/
theorem compatibility_badStates (h : compatibility m s.queue check = .badStates) :
    m.allQueued check = false := by
  cases check with
  | nil => nomatch h
  | cons front rest =>
    unfold compatibility at h
    split at h
    · nomatch h
    split at h
    · rename_i hchild
      rw [h] at hchild
      exact absurd rfl hchild.2
    · cases hverdict : s.queue.verdict m (front :: rest) with
      | notQueued => rw [hverdict] at h; nomatch h
      | cached compatibles =>
        rw [hverdict] at h
        exact (verdict_cached hverdict).2 h
      | formed => rw [hverdict] at h; nomatch h

/-- What is found for guids, if it is found afresh. -/
theorem outcome_compatibilityOf (h : Fresh m s.queue check) :
    Outcome check [] s (s.compatibilityOf m check).1 (s.compatibilityOf m check).2 := by
  by_cases hp : s.queue.getCompatibles (concatenateGuids check) = .pending
  · have hcheck := outcome_checkCompatibility check s (h.rests hp)
    rw [compatibilityOf_pending hp]
    split
    · rename_i hbad
      have hqueued := compatibility_badStates ((compatibility_checkCompatibility check s) ▸ hbad.1)
      exact absurd hbad.2 (Bool.eq_false_iff.mp hqueued)
    · exact hcheck
  · rw [compatibilityOf_cached hp]
    split
    · rename_i hbad
      exact absurd hbad.2 (Bool.eq_false_iff.mp (h.badStates hbad.1))
    · exact Or.inl ⟨h.noMatch, Leaves.refl s⟩

theorem Outcome.mono {all all' : List ObjectGuid} (h : Outcome check all s compatibles s')
    (hsub : all.Sublist all') : Outcome check all' s compatibles s' := by
  rcases h with hno | ⟨heq, p, more, hqueues, hmore, hrest⟩
  · exact Or.inl hno
  · exact Or.inr ⟨heq, p, more, hqueues, hmore.trans hsub, hrest⟩

/-- A match with one more guid. -/
theorem Outcome.next {all : List ObjectGuid} {guid : ObjectGuid}
    (h : Outcome (check ++ [guid]) all s compatibles s') :
    Outcome check (guid :: all) s compatibles s' := by
  rcases h with hno | ⟨heq, p, more, hqueues, hmore, hrest⟩
  · exact Or.inl hno
  · refine Or.inr ⟨heq, p, guid :: more, ?_, hmore.cons_cons guid, hrest⟩
    rw [hqueues, List.append_assoc]
    rfl

/-- **A search that finds everything afresh** comes to no match, or to one proposal. -/
theorem outcome_findNewGroups (check all : List ObjectGuid) (s : Search) :
    FreshSearch m check all s →
      Outcome check all s (findNewGroups m check all s).1 (findNewGroups m check all s).2.2 := by
  refine search_induction (m := m)
    (P := fun check all s => FreshSearch m check all s →
      Outcome check all s (findNewGroups m check all s).1 (findNewGroups m check all s).2.2)
    (Q := fun check all s => FreshLoop m check all s →
      Outcome check all s (matchQueued m check all s).1 (matchQueued m check all s).2.2)
    ?_ ?_ ?_ check all s
  · intro check all s hloop h
    rw [FreshSearch] at h
    obtain ⟨hfresh, hgoes⟩ := h
    have hfound := (outcome_compatibilityOf hfresh).mono (List.nil_sublist all)
    rw [findNewGroups]
    split
    · exact hfound
    · rename_i heq
      have heq := not_not.mp heq
      rcases hfound with ⟨-, hleaves⟩ | ⟨hmatch, -⟩
      · exact (hloop (hgoes heq)).after hleaves
      · rw [heq] at hmatch
        cases hmatch
  · intro check s _
    rw [matchQueued]
    exact Or.inl ⟨LfgCompatibility.noConfusion, Leaves.refl s⟩
  · intro check guid all s hsub hrest h
    rw [FreshLoop] at h
    obtain ⟨hfresh, hgoes⟩ := h
    have hsub := hsub hfresh
    rw [matchQueued]
    split
    · rename_i hmatch
      rw [hmatch] at hsub
      exact hsub.next
    · rename_i hno
      have hlast := (findNewGroups m (check ++ [guid]) all s).2.1.2
      rcases hsub with ⟨-, hleaves⟩ | ⟨hmatch, -⟩
      · exact ((hrest (hgoes hno)).after hleaves).mono (hlast.sublist.cons guid)
      · exact absurd hmatch hno

end Search

/-! ## 4. The turns of `FindGroups` -/

/-- Between two turns: each guid that was listed and has an entry is listed once or in one
proposal, and the number of proposals is known. -/
structure Placed (q : LFGQueue) (x : Search × ℕ) : Prop where
  data : x.1.queue.queueDataStore = q.queueDataStore
  lists : ListedOnce x.1.queue
  once : ∀ guid, guid ∈ q.newToQueueStore ∨ guid ∈ q.currentQueueStore →
    (q.queueDataStore guid).isSome = true →
      (if guid ∈ x.1.queue.newToQueueStore then 1 else 0) + x.1.queue.currentQueueStore.count guid +
        x.1.proposals.countP (fun p => guid ∈ p.queues) = 1
  counted : x.2 = x.1.proposals.length

theorem Placed.init (hq : ListedOnce q) : Placed q (⟨q, []⟩, 0) where
  data := rfl
  lists := hq
  once guid hguid _ := by
    rw [List.Nodup.count hq.nodup]
    by_cases hnew : guid ∈ q.newToQueueStore
    · simp [hnew, hq.apart guid hnew]
    · simp [hnew, hguid.resolve_left hnew]
  counted := rfl

variable {frontguid : ObjectGuid}

/-- A turn keeps the guids placed, whatever its search comes to; `s` is what the search starts
from. -/
theorem Placed.found {x : Search × ℕ} {s s' : Search} {compatibles : LfgCompatibility}
    (h : Placed q x) (hfront : frontguid ∈ x.1.queue.newToQueueStore)
    (hs : s = { x.1 with queue := x.1.queue.removeFromNewQueue frontguid })
    (houtcome : Search.Outcome [frontguid] s.queue.currentQueueStore s compatibles s')
    (hbound : compatibles = .isMatch → x.2 + 1 < 2 ^ 8) :
    Placed q (if compatibles = .isMatch then (s', (x.2 + 1) % 2 ^ 8)
      else ({ s' with queue := s'.queue.addToCurrentQueue frontguid }, x.2)) := by
  have hnotCurrent := h.lists.apart frontguid hfront
  have hdata : s.queue.queueDataStore = q.queueDataStore := by rw [hs]; exact h.data
  have hproposals : s.proposals = x.1.proposals := by rw [hs]
  have hcurrent : s.queue.currentQueueStore = x.1.queue.currentQueueStore := by rw [hs]; rfl
  have hnew : ∀ guid, guid ∈ s.queue.newToQueueStore ↔
      guid ∈ x.1.queue.newToQueueStore ∧ guid ≠ frontguid := by
    intro guid
    rw [hs]
    exact List.mem_filter.trans (and_congr_right fun _ => decide_eq_true_iff)
  have hlists : ∀ {gone added}, Search.Leaves gone added s s' →
      s'.queue.currentQueueStore.Nodup ∧ frontguid ∉ s'.queue.currentQueueStore ∧
        ∀ guid ∈ s'.queue.newToQueueStore, guid ≠ frontguid ∧
          guid ∉ s'.queue.currentQueueStore := by
    intro gone added hleaves
    have hsub : s'.queue.currentQueueStore.Sublist x.1.queue.currentQueueStore :=
      hcurrent ▸ hleaves.current_of
    refine ⟨hsub.nodup h.lists.nodup, fun hmem => hnotCurrent (hsub.subset hmem), ?_⟩
    intro guid hguid
    obtain ⟨hwas, hne⟩ := (hnew guid).mp (hleaves.new_of guid hguid)
    exact ⟨hne, fun hmem => h.lists.apart guid hwas (hsub.subset hmem)⟩
  rcases houtcome with ⟨hne, hleaves⟩ | ⟨heq, p, more, hqueues, hmore, hqueued, hleaves⟩
  · obtain ⟨hnodup, hout, hapart⟩ := hlists hleaves
    have hadded : (s'.queue.currentQueueStore ++ [frontguid]).Nodup := by
      refine List.nodup_append.mpr ⟨hnodup, List.nodup_singleton _, ?_⟩
      intro guid hguid other hother heq
      rw [heq, List.mem_singleton.mp hother] at hguid
      exact hout hguid
    rw [if_neg hne]
    refine ⟨hleaves.data.trans hdata, ⟨hadded, ?_⟩, ?_, ?_⟩
    · intro guid hguid hmem
      obtain ⟨hother, hnot⟩ := hapart guid hguid
      rcases List.mem_append.mp hmem with hmem | hmem
      · exact hnot hmem
      · exact hother (List.mem_singleton.mp hmem)
    · intro guid hguid hsome
      have honce := h.once guid hguid hsome
      have hentry : (s.queue.queueDataStore guid).isSome = true := hdata ▸ hsome
      have hnew' := (hleaves.new guid hentry).trans (and_iff_left List.not_mem_nil)
      have hcurrent' := (hleaves.current guid hentry).trans (and_iff_left List.not_mem_nil)
      have hp : s'.proposals = x.1.proposals := by
        rw [hleaves.proposals, List.append_nil, hproposals]
      change (if guid ∈ s'.queue.newToQueueStore then 1 else 0) +
        (s'.queue.currentQueueStore ++ [frontguid]).count guid +
          s'.proposals.countP (fun p => guid ∈ p.queues) = 1
      rw [List.Nodup.count h.lists.nodup] at honce
      rw [List.Nodup.count hadded, hp]
      simp only [List.mem_append, List.mem_singleton, hnew', hcurrent', hnew, hcurrent]
      by_cases hfg : guid = frontguid
      · rw [hfg] at honce ⊢
        simpa [hfront, hnotCurrent] using honce
      · simpa [hfg] using honce
    · rw [hleaves.proposals, List.append_nil, hproposals]
      exact h.counted
  · obtain ⟨hnodup, hout, hapart⟩ := hlists hleaves
    rw [if_pos heq]
    refine ⟨hleaves.data.trans hdata, ⟨hnodup, fun guid hguid => (hapart guid hguid).2⟩, ?_, ?_⟩
    · intro guid hguid hsome
      have honce := h.once guid hguid hsome
      have hentry : (s.queue.queueDataStore guid).isSome = true := hdata ▸ hsome
      have hnew' := hleaves.new guid hentry
      have hcurrent' := hleaves.current guid hentry
      have hmem : guid ∈ p.queues ↔ guid = frontguid ∨ guid ∈ more := by
        rw [hqueues]
        exact List.mem_cons
      change (if guid ∈ s'.queue.newToQueueStore then 1 else 0) +
        s'.queue.currentQueueStore.count guid + s'.proposals.countP (fun p => guid ∈ p.queues) = 1
      rw [List.Nodup.count h.lists.nodup] at honce
      rw [List.Nodup.count hnodup, hleaves.proposals, hproposals, List.countP_append,
        List.countP_singleton]
      simp only [hnew', hcurrent', hnew, hcurrent, decide_eq_true_iff, hmem]
      by_cases hfg : guid = frontguid
      · rw [hfg] at honce ⊢
        simpa [hfront, hnotCurrent] using honce
      · by_cases hmg : guid ∈ more
        · have hlisted : guid ∈ x.1.queue.currentQueueStore := hcurrent ▸ hmore.subset hmg
          have hold : guid ∉ x.1.queue.newToQueueStore := fun hn => h.lists.apart guid hn hlisted
          simpa [hfg, hmg, hlisted, hold] using honce
        · simpa [hfg, hmg] using honce
    · rw [hleaves.proposals, hproposals, List.length_append, ← h.counted]
      exact Nat.mod_eq_of_lt (hbound heq)

theorem Placed.turn {x : Search × ℕ} (h : Placed q x)
    (hfront : frontguid ∈ x.1.queue.newToQueueStore) (hfresh : Search.FreshTurn m frontguid x) :
    Placed q (Search.findTurn m frontguid x) :=
  h.found hfront rfl (Search.outcome_findNewGroups _ _ _ hfresh.1) hfresh.2

/-- A run of turns. -/
theorem Placed.run (n : ℕ) : ∀ x : Search × ℕ, Placed q x → Search.FreshTurns m n x →
    Placed q (Search.findGroupsLoop m n x) := by
  induction n with
  | zero => exact fun _ h _ => h
  | succ n ih =>
    intro x h hfresh
    unfold Search.findGroupsLoop
    unfold Search.FreshTurns at hfresh
    split
    · exact h
    · rename_i frontguid guids hnew
      rw [hnew] at hfresh
      have hfront : frontguid ∈ x.1.queue.newToQueueStore := hnew ▸ List.mem_cons_self
      exact ih _ (h.turn hfront hfresh.1) hfresh.2

/-! ## 5. The list of new guids -/

/-- A turn takes a guid from the list of new ones, and adds none. -/
theorem newToQueueStore_findTurn {x : Search × ℕ} {guids : List ObjectGuid}
    (h : x.1.queue.newToQueueStore = frontguid :: guids) :
    (Search.findTurn m frontguid x).1.queue.newToQueueStore.length ≤ guids.length := by
  have hsub : (Search.findTurn m frontguid x).1.queue.newToQueueStore.Sublist
      (x.1.queue.removeFromNewQueue frontguid).newToQueueStore := by
    unfold Search.findTurn
    dsimp only
    split
    · exact Search.newToQueueStore_findNewGroups _ _ _
    · exact Search.newToQueueStore_findNewGroups _ _ _
  refine hsub.length_le.trans ?_
  unfold LFGQueue.removeFromNewQueue
  rw [h, List.filter_cons_of_neg (by simp)]
  exact List.length_filter_le _ _

/-- **`FindGroups` leaves no new guid**, whatever the cache says. -/
theorem findGroupsLoop_empties (n : ℕ) : ∀ x : Search × ℕ,
    x.1.queue.newToQueueStore.length ≤ n →
      (Search.findGroupsLoop m n x).1.queue.newToQueueStore = [] := by
  induction n with
  | zero => exact fun x hn => List.length_eq_zero_iff.mp (Nat.le_zero.mp hn)
  | succ n ih =>
    intro x hn
    unfold Search.findGroupsLoop
    split
    · assumption
    · rename_i frontguid guids hnew
      rw [hnew] at hn
      exact ih _ ((newToQueueStore_findTurn hnew).trans (Nat.le_of_succ_le_succ hn))

/-! ## 6. The whole call -/

/-- The same entry, of which the cache has it that not all of its players are queued; by now they
are. -/
def staleQueue : LFGQueue :=
  { fiveQueue with compatibleMapStore := fun key => if key = ['9'] then .badStates else .pending }

end HungerGames.Lfg
