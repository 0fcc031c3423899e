/-
# The structure of the queue

The lists, the objects and the map of players belong together: an object is in one list, of the
team it has, and a player is in the object the map leads to.  Groups change lists in four places,
and their team is written in two; everywhere the two fit.

So `RemovePlayer` finds the group of every player the map knows, and deletes it when the last of
its players leaves.
-/
import HungerGames.Battlegrounds.Queue
import HungerGames.System.Run

namespace HungerGames.Battlegrounds

open HungerGames.System

/-! ## 1. What belongs together -/

/-- Every object is in one list, once. -/
structure Listed (q : BattlegroundQueue) : Prop where
  nodup : ∀ p, (q.queuedGroups p).Nodup
  apart : ∀ p p' id, id ∈ q.queuedGroups p → id ∈ q.queuedGroups p' → p = p'
  stored : ∀ id, (∃ g, q.groups id = some g) ↔ ∃ p, id ∈ q.queuedGroups p

/-- The map leads to the group a player is in. -/
structure Recorded (q : BattlegroundQueue) : Prop where
  fresh : ∀ id g, q.groups id = some g → id < q.next
  entry : ∀ guid id, q.queuedPlayers.lookup guid = some id ↔
    ∃ g, q.groups id = some g ∧ guid ∈ g.players
  nonempty : ∀ id g, q.groups id = some g → g.players.Nonempty

/-- The lists and the map are as they should be, and a group is in a list of its team. -/
structure InOrder (q : BattlegroundQueue) : Prop where
  listed : Listed q
  recorded : Recorded q
  team : ∀ p, ∀ id ∈ q.queuedGroups p, ∀ g, q.groups id = some g → g.team = p.team

/-- A group that is added is of players who are not in the queue. -/
def JoinsNew (q : BattlegroundQueue) : Call → Prop
  | .addGroup _ _ leader members _ _ _ _ _ =>
    ∀ guid ∈ leader :: members, q.queuedPlayers.lookup guid = none
  | _ => True

/-- `RemovePlayer` finds the group of a player, and deletes it just when none of its players is
left in the queue. -/
def RemovesWell (q : BattlegroundQueue) (guid : ℕ) : Prop :=
  ∀ id, q.queuedPlayers.lookup guid = some id →
    (∃ p, q.findGroup id (q.group id).team = some p ∧ id ∈ q.queuedGroups p) ∧
      ((q.removePlayer guid).groups id = none ↔
        ∀ guid' ∈ (q.group id).players, (q.removePlayer guid).queuedPlayers.lookup guid' = none)

variable {q q' : BattlegroundQueue}

/-! ## 2. Lists and objects -/

namespace BattlegroundQueue

theorem group_eq {id : ℕ} {g : GroupQueueInfo} (h : q.groups id = some g) : q.group id = g := by
  unfold group
  rw [h]
  rfl

theorem queuedGroups_setList (p p' : Place) (ids : List ℕ) :
    (q.setList p ids).queuedGroups p' = if p' = p then ids else q.queuedGroups p' :=
  Function.update_apply ..

theorem groups_modifyGroup (id id' : ℕ) (f : GroupQueueInfo → GroupQueueInfo) :
    (q.modifyGroup id f).groups id' =
      if id' = id then (q.groups id).map f else q.groups id' :=
  Function.update_apply ..

theorem queuedGroups_transfer (id : ℕ) (src dst p : Place) :
    (q.transfer id src dst).queuedGroups p =
      if p = src then (q.queuedGroups src).erase id
      else if p = dst then id :: q.queuedGroups dst
      else q.queuedGroups p := by
  unfold transfer
  rw [queuedGroups_setList, queuedGroups_setList]

end BattlegroundQueue

/-- The objects have the players they had, and the map is the same. -/
structure SameMembers (q q' : BattlegroundQueue) : Prop where
  players : ∀ id, (q'.groups id).map GroupQueueInfo.players = (q.groups id).map GroupQueueInfo.players
  next : q'.next = q.next
  queuedPlayers : q'.queuedPlayers = q.queuedPlayers

theorem SameMembers.refl (q : BattlegroundQueue) : SameMembers q q := ⟨fun _ => rfl, rfl, rfl⟩

theorem SameMembers.trans {q₁ q₂ q₃ : BattlegroundQueue} (h : SameMembers q₁ q₂)
    (h' : SameMembers q₂ q₃) : SameMembers q₁ q₃ :=
  ⟨fun id => (h'.players id).trans (h.players id), h'.next.trans h.next,
    h'.queuedPlayers.trans h.queuedPlayers⟩

theorem SameMembers.symm (h : SameMembers q q') : SameMembers q' q :=
  ⟨fun id => (h.players id).symm, h.next.symm, h.queuedPlayers.symm⟩

variable {id : ℕ}

theorem SameMembers.find (h : SameMembers q q') {g' : GroupQueueInfo}
    (hg' : q'.groups id = some g') : ∃ g, q.groups id = some g ∧ g.players = g'.players := by
  have hplayers := h.players id
  rw [hg', Option.map_some] at hplayers
  exact Option.map_eq_some_iff.mp hplayers.symm

theorem SameMembers.stored_iff (h : SameMembers q q') (id : ℕ) :
    (∃ g', q'.groups id = some g') ↔ ∃ g, q.groups id = some g := by
  constructor
  · rintro ⟨g', hg'⟩
    obtain ⟨g, hg, -⟩ := h.find hg'
    exact ⟨g, hg⟩
  · rintro ⟨g, hg⟩
    obtain ⟨g', hg', -⟩ := h.symm.find hg
    exact ⟨g', hg'⟩

theorem Recorded.of_same (hq : Recorded q) (h : SameMembers q q') : Recorded q' where
  fresh id g' hg' := by
    obtain ⟨g, hg, -⟩ := h.find hg'
    rw [h.next]
    exact hq.fresh id g hg
  entry guid id := by
    rw [h.queuedPlayers, hq.entry]
    constructor
    · rintro ⟨g, hg, hmem⟩
      obtain ⟨g', hg', heq⟩ := h.symm.find hg
      exact ⟨g', hg', heq ▸ hmem⟩
    · rintro ⟨g', hg', hmem⟩
      obtain ⟨g, hg, heq⟩ := h.find hg'
      exact ⟨g, hg, heq ▸ hmem⟩
  nonempty id g' hg' := by
    obtain ⟨g, hg, heq⟩ := h.find hg'
    exact heq ▸ hq.nonempty id g hg

theorem sameMembers_modifyGroup (q : BattlegroundQueue) (id : ℕ)
    {f : GroupQueueInfo → GroupQueueInfo} (hf : ∀ g, (f g).players = g.players) :
    SameMembers q (q.modifyGroup id f) := by
  refine ⟨fun id' => ?_, rfl, rfl⟩
  rw [BattlegroundQueue.groups_modifyGroup]
  split
  · rename_i heq
    rw [heq, Option.map_map]
    congr 1
    funext g
    exact hf g
  · rfl

theorem sameMembers_transfer (q : BattlegroundQueue) (id : ℕ) (src dst : Place) :
    SameMembers q (q.transfer id src dst) := ⟨fun _ => rfl, rfl, rfl⟩

/-- The lists are the same, of the same objects. -/
theorem Listed.of_same (hq : Listed q) (h : SameMembers q q')
    (hlists : q'.queuedGroups = q.queuedGroups) : Listed q' := by
  refine ⟨fun p => ?_, fun p p' id => ?_, fun id => ?_⟩
  · rw [hlists]
    exact hq.nodup p
  · rw [hlists]
    exact hq.apart p p' id
  · rw [h.stored_iff, hlists]
    exact hq.stored id

/-- After a group has changed lists. -/
theorem Listed.mem_transfer (hq : Listed q) {src dst : Place} (hne : src ≠ dst)
    (hmem : id ∈ q.queuedGroups src) (p : Place) (id' : ℕ) :
    id' ∈ (q.transfer id src dst).queuedGroups p ↔
      if id' = id then p = dst else id' ∈ q.queuedGroups p := by
  rw [BattlegroundQueue.queuedGroups_transfer]
  by_cases hid : id' = id
  · subst hid
    rw [if_pos rfl]
    split
    · rename_i hp
      subst hp
      exact iff_of_false (hq.nodup p).not_mem_erase hne
    · split
      · exact iff_of_true List.mem_cons_self ‹_›
      · rename_i hp hp'
        exact iff_of_false (fun h => hp (hq.apart _ _ _ h hmem)) hp'
  · rw [if_neg hid]
    split
    · rename_i hp
      rw [List.mem_erase_of_ne hid, hp]
    · split
      · rename_i hp
        rw [List.mem_cons, or_iff_right hid, hp]
      · rfl

theorem Listed.transfer (hq : Listed q) {src dst : Place} (hne : src ≠ dst)
    (hmem : id ∈ q.queuedGroups src) : Listed (q.transfer id src dst) := by
  have hafter := hq.mem_transfer hne hmem
  refine ⟨fun p => ?_, fun p p' id' h h' => ?_, fun id' => ?_⟩
  · rw [BattlegroundQueue.queuedGroups_transfer]
    split
    · exact (hq.nodup src).erase id
    · split
      · exact List.nodup_cons.mpr ⟨fun h => hne (hq.apart _ _ _ hmem h), hq.nodup dst⟩
      · exact hq.nodup p
  · rw [hafter] at h h'
    split at h
    · rw [if_pos ‹_›] at h'
      rw [h, h']
    · rw [if_neg ‹_›] at h'
      exact hq.apart p p' id' h h'
  · have hstored : (∃ g, (q.transfer id src dst).groups id' = some g) ↔
        ∃ p, id' ∈ q.queuedGroups p := hq.stored id'
    rw [hstored]
    simp only [hafter]
    by_cases hid : id' = id
    · subst hid
      exact iff_of_true ⟨src, hmem⟩ ⟨dst, (if_pos rfl).mpr rfl⟩
    · simp only [if_neg hid]

/-! ## 3. Groups come and go -/

theorem lookup_foldl_insert (guids : List ℕ) (id : ℕ) (m : Finmap fun _ : ℕ => ℕ) (guid : ℕ) :
    (guids.foldl (fun m guid => m.insert guid id) m).lookup guid =
      if guid ∈ guids then some id else m.lookup guid := by
  induction guids generalizing m with
  | nil => rfl
  | cons x guids ih =>
    rw [List.foldl_cons, ih]
    by_cases hmem : guid ∈ guids
    · rw [if_pos hmem, if_pos (List.mem_cons_of_mem x hmem)]
    · rw [if_neg hmem]
      by_cases hx : guid = x
      · rw [hx, Finmap.lookup_insert, if_pos List.mem_cons_self]
      · rw [Finmap.lookup_insert_of_ne _ hx, if_neg fun h => (List.mem_cons.mp h).elim hx hmem]

theorem InOrder.empty : InOrder .empty := by
  refine ⟨⟨fun _ => List.nodup_nil, fun _ _ _ h => absurd h List.not_mem_nil, fun id => ?_⟩,
    ⟨fun _ _ h => (nomatch h), fun guid id => ?_, fun _ _ h => (nomatch h)⟩,
    fun _ _ h => absurd h List.not_mem_nil⟩
  · exact iff_of_false (fun ⟨_, h⟩ => nomatch h) fun ⟨_, h⟩ => List.not_mem_nil h
  · refine iff_of_false (fun h => ?_) fun ⟨_, h, _⟩ => nomatch h
    exact Option.some_ne_none id (h.symm.trans (Finmap.lookup_empty guid))

/-- What adding a group does: there is one object more, in a list, of some players. -/
structure Joined (q q' : BattlegroundQueue) (p : Place) (g : GroupQueueInfo) : Prop where
  groups : ∀ id, q'.groups id = if id = q.next then some g else q.groups id
  lists : ∀ p', q'.queuedGroups p' =
    if p' = p then q.queuedGroups p ++ [q.next] else q.queuedGroups p'
  lookup : ∀ guid, q'.queuedPlayers.lookup guid =
    if guid ∈ g.players then some q.next else q.queuedPlayers.lookup guid
  next : q'.next = q.next + 1

section Joining

variable {p : Place} {g : GroupQueueInfo} (h : Joined q q' p g)
include h

theorem Joined.mem_iff (p' : Place) (id : ℕ) :
    id ∈ q'.queuedGroups p' ↔ id ∈ q.queuedGroups p' ∨ p' = p ∧ id = q.next := by
  rw [h.lists]
  split
  · rename_i heq
    rw [heq, List.mem_append, List.mem_singleton]
    simp
  · rename_i hne
    simp [hne]

theorem Joined.listed (hq : Listed q) (hout : ∀ p', q.next ∉ q.queuedGroups p') : Listed q' := by
  refine ⟨fun p' => ?_, fun p₁ p₂ id h₁ h₂ => ?_, fun id => ?_⟩
  · rw [h.lists]
    split
    · rw [List.nodup_append]
      refine ⟨hq.nodup p, List.nodup_singleton _, fun a ha b hb heq => hout p ?_⟩
      rw [← List.mem_singleton.mp hb, ← heq]
      exact ha
    · exact hq.nodup p'
  · rw [h.mem_iff] at h₁ h₂
    rcases h₁ with h₁ | ⟨h₁, rfl⟩
    · rcases h₂ with h₂ | ⟨-, rfl⟩
      · exact hq.apart p₁ p₂ id h₁ h₂
      · exact absurd h₁ (hout p₁)
    · rcases h₂ with h₂ | ⟨h₂, -⟩
      · exact absurd h₂ (hout p₂)
      · exact h₁.trans h₂.symm
  · simp only [h.mem_iff]
    rw [h.groups]
    split
    · rename_i heq
      exact iff_of_true ⟨_, rfl⟩ ⟨p, Or.inr ⟨rfl, heq⟩⟩
    · rename_i hne
      simp only [hne, and_false, or_false]
      exact hq.stored id

theorem Joined.recorded (hq : Recorded q) (hsome : g.players.Nonempty)
    (hnew : ∀ guid ∈ g.players, q.queuedPlayers.lookup guid = none) : Recorded q' := by
  refine ⟨fun id g' hg => ?_, fun guid id => ?_, fun id g' hg => ?_⟩
  · rw [h.groups] at hg
    rw [h.next]
    split at hg
    · rename_i heq
      rw [heq]
      exact Nat.lt_succ_self _
    · exact Nat.lt_succ_of_lt (hq.fresh id g' hg)
  · rw [h.lookup, h.groups]
    by_cases hid : id = q.next
    · subst hid
      rw [if_pos rfl]
      split
      · rename_i hguid
        exact iff_of_true rfl ⟨g, rfl, hguid⟩
      · rename_i hguid
        refine iff_of_false (fun hlookup => ?_) ?_
        · obtain ⟨g', hg, -⟩ := (hq.entry guid q.next).mp hlookup
          exact Nat.lt_irrefl _ (hq.fresh q.next g' hg)
        · rintro ⟨g', hg, hmem⟩
          exact hguid (Option.some.inj hg ▸ hmem)
    · rw [if_neg hid]
      split
      · rename_i hguid
        refine iff_of_false (fun heq => hid (Option.some.inj heq).symm) fun hold => ?_
        exact Option.some_ne_none id (((hq.entry guid id).mpr hold).symm.trans (hnew guid hguid))
      · exact hq.entry guid id
  · rw [h.groups] at hg
    split at hg
    · exact Option.some.inj hg ▸ hsome
    · exact hq.nonempty id g' hg

end Joining

theorem InOrder.addGroup (hq : InOrder q) (bracket : BracketId) (team : TeamId) (leader : ℕ)
    (members : List ℕ) (isRated isPremade : Bool) (joinTime arenaTeamId rating : ℕ)
    (hnew : ∀ guid ∈ leader :: members, q.queuedPlayers.lookup guid = none) :
    InOrder (q.addGroup bracket team leader members isRated isPremade joinTime arenaTeamId
      rating) := by
  have hjoined : Joined q
      (q.addGroup bracket team leader members isRated isPremade joinTime arenaTeamId rating)
      ⟨bracket, if ¬ isRated ∧ ¬ isPremade then .normal else .premade, team⟩
      ⟨(leader :: members).toFinset, team, isRated, arenaTeamId, joinTime, 0, rating⟩ := by
    refine ⟨fun _ => Function.update_apply .., fun _ => Function.update_apply .., fun guid => ?_,
      rfl⟩
    simp only [List.mem_toFinset]
    exact lookup_foldl_insert (leader :: members) q.next q.queuedPlayers guid
  have hout : ∀ p', q.next ∉ q.queuedGroups p' := by
    intro p' h
    obtain ⟨g, hg⟩ := (hq.listed.stored q.next).mpr ⟨p', h⟩
    exact Nat.lt_irrefl _ (hq.recorded.fresh q.next g hg)
  refine ⟨hjoined.listed hq.listed hout, hjoined.recorded hq.recorded ?_ ?_, ?_⟩
  · exact ⟨leader, List.mem_toFinset.mpr List.mem_cons_self⟩
  · exact fun guid hguid => hnew guid (List.mem_toFinset.mp hguid)
  · intro p' id hid g hg
    rw [hjoined.mem_iff] at hid
    rw [hjoined.groups] at hg
    rcases hid with hid | ⟨rfl, rfl⟩
    · have hne : id ≠ q.next := fun heq => hout p' (heq ▸ hid)
      rw [if_neg hne] at hg
      exact hq.team p' id hid g hg
    · rw [if_pos rfl] at hg
      rw [← Option.some.inj hg]

/-- The search of `RemovePlayer` comes to the list a group is in. -/
theorem findGroup_of_mem (hq : Listed q) {p : Place} (h : id ∈ q.queuedGroups p) :
    q.findGroup id p.team = some p := by
  have hfound : ∀ p', q.findGroup id p.team = some p' → p' = p := by
    intro p' hp'
    obtain ⟨bracket, -, hat⟩ := List.exists_of_findSome?_eq_some hp'
    refine hq.apart p' p id ?_ h
    split at hat
    · rename_i hmem
      exact Option.some.inj hat ▸ hmem
    · split at hat
      · rename_i hmem
        exact Option.some.inj hat ▸ hmem
      · nomatch hat
  cases hsearch : q.findGroup id p.team with
  | some p' => rw [hfound p' hsearch]
  | none =>
    have hnone := List.findSome?_eq_none_iff.mp hsearch p.bracket
      (List.mem_reverse.mpr (List.mem_finRange _))
    obtain ⟨bracket, kind, team⟩ := p
    split at hnone
    · nomatch hnone
    · rename_i hnormal
      split at hnone
      · nomatch hnone
      · rename_i hpremade
        cases kind with
        | premade => exact absurd h hpremade
        | normal => exact absurd h hnormal

theorem InOrder.findGroup (hq : InOrder q) {g : GroupQueueInfo} (hg : q.groups id = some g) :
    ∃ p, id ∈ q.queuedGroups p ∧ q.findGroup id (q.group id).team = some p := by
  obtain ⟨p, hp⟩ := (hq.listed.stored id).mp ⟨g, hg⟩
  refine ⟨p, hp, ?_⟩
  rw [BattlegroundQueue.group_eq hg, hq.team p id hp g hg]
  exact findGroup_of_mem hq.listed hp

/-- A group without its last player is deleted. -/
theorem InOrder.deleteGroup (hq : InOrder q) {guid : ℕ} {p : Place} {g : GroupQueueInfo}
    (hg : q.groups id = some g) (hp : id ∈ q.queuedGroups p) (hplayers : g.players = {guid}) :
    InOrder ((q.erasePlayer guid).deleteGroup id p) := by
  obtain ⟨⟨hnodup, hapart, hstored⟩, ⟨hfresh, hentry, hnonempty⟩, hteam⟩ := hq
  have hlists : ∀ p', ((q.erasePlayer guid).deleteGroup id p).queuedGroups p' =
      if p' = p then (q.queuedGroups p).erase id else q.queuedGroups p' := fun p' =>
    Function.update_apply ..
  have hgroups : ∀ id', ((q.erasePlayer guid).deleteGroup id p).groups id' =
      if id' = id then none else q.groups id' := fun id' => Function.update_apply ..
  have hmap : ((q.erasePlayer guid).deleteGroup id p).queuedPlayers =
      q.queuedPlayers.erase guid := rfl
  have hnext : ((q.erasePlayer guid).deleteGroup id p).next = q.next := rfl
  generalize (q.erasePlayer guid).deleteGroup id p = q' at *
  have hmem : ∀ p' id', id' ∈ q'.queuedGroups p' ↔ id' ≠ id ∧ id' ∈ q.queuedGroups p' := by
    intro p' id'
    rw [hlists]
    split
    · rename_i heq
      rw [heq, (hnodup p).mem_erase_iff]
    · rename_i hne
      exact ⟨fun h => ⟨fun heq => hne (hapart p' p id (heq ▸ h) hp), h⟩, fun h => h.2⟩
  have hkept : ∀ id' g', q'.groups id' = some g' ↔ id' ≠ id ∧ q.groups id' = some g' := by
    intro id' g'
    rw [hgroups]
    split
    · rename_i heq
      exact iff_of_false (fun h => nomatch h) fun h => h.1 heq
    · rename_i hne
      exact ⟨fun h => ⟨hne, h⟩, fun h => h.2⟩
  refine ⟨⟨fun p' => ?_, fun p₁ p₂ id' h₁ h₂ => ?_, fun id' => ?_⟩,
    ⟨fun id' g' h => ?_, fun guid' id' => ?_, fun id' g' h => ?_⟩, fun p' id' hid' g' h => ?_⟩
  · rw [hlists]
    split
    · exact (hnodup p).erase id
    · exact hnodup p'
  · exact hapart p₁ p₂ id' ((hmem p₁ id').mp h₁).2 ((hmem p₂ id').mp h₂).2
  · simp only [hkept, hmem, exists_and_left, hstored id']
  · rw [hnext]
    exact hfresh id' g' ((hkept id' g').mp h).2
  · simp only [hmap, hkept]
    by_cases hguid : guid' = guid
    · subst hguid
      rw [Finmap.lookup_erase]
      refine iff_of_false (fun h => nomatch h) ?_
      rintro ⟨g', ⟨hne, hg'⟩, hmem'⟩
      have hhere := (hentry guid' id).mpr ⟨g, hg, by rw [hplayers]; exact Finset.mem_singleton_self _⟩
      have hthere := (hentry guid' id').mpr ⟨g', hg', hmem'⟩
      exact hne (Option.some.inj (hthere.symm.trans hhere))
    · rw [Finmap.lookup_erase_ne hguid, hentry]
      constructor
      · rintro ⟨g', hg', hmem'⟩
        refine ⟨g', ⟨?_, hg'⟩, hmem'⟩
        rintro rfl
        obtain rfl : g = g' := Option.some.inj (hg.symm.trans hg')
        rw [hplayers] at hmem'
        exact hguid (Finset.mem_singleton.mp hmem')
      · rintro ⟨g', ⟨-, hg'⟩, hmem'⟩
        exact ⟨g', hg', hmem'⟩
  · exact hnonempty id' g' ((hkept id' g').mp h).2
  · exact hteam p' id' ((hmem p' id').mp hid').2 g' ((hkept id' g').mp h).2

/-- A group that has other players is without one. -/
theorem InOrder.leaveGroup (hq : InOrder q) {guid : ℕ} {g : GroupQueueInfo}
    (hg : q.groups id = some g) (hguid : guid ∈ g.players)
    (hothers : (g.players.erase guid).Nonempty) :
    InOrder ((q.erasePlayer guid).modifyGroup id fun g' =>
      { g' with players := g.players.erase guid }) := by
  obtain ⟨⟨hnodup, hapart, hstored⟩, ⟨hfresh, hentry, hnonempty⟩, hteam⟩ := hq
  have hgroups : ∀ id', ((q.erasePlayer guid).modifyGroup id fun g' =>
      { g' with players := g.players.erase guid }).groups id' =
        if id' = id then some { g with players := g.players.erase guid } else q.groups id' := by
    intro id'
    rw [BattlegroundQueue.groups_modifyGroup]
    have hsame : (q.erasePlayer guid).groups = q.groups := rfl
    rw [hsame, hg]
    rfl
  have hlists : ((q.erasePlayer guid).modifyGroup id fun g' =>
      { g' with players := g.players.erase guid }).queuedGroups = q.queuedGroups := rfl
  have hmap : ((q.erasePlayer guid).modifyGroup id fun g' =>
      { g' with players := g.players.erase guid }).queuedPlayers = q.queuedPlayers.erase guid := rfl
  have hnext : ((q.erasePlayer guid).modifyGroup id fun g' =>
      { g' with players := g.players.erase guid }).next = q.next := rfl
  generalize (q.erasePlayer guid).modifyGroup id (fun g' =>
    { g' with players := g.players.erase guid }) = q' at *
  refine ⟨⟨fun p => ?_, fun p p' id' => ?_, fun id' => ?_⟩,
    ⟨fun id' g' h => ?_, fun guid' id' => ?_, fun id' g' h => ?_⟩, fun p id' hid' g' h => ?_⟩
  · rw [hlists]
    exact hnodup p
  · rw [hlists]
    exact hapart p p' id'
  · rw [hlists, ← hstored id', hgroups]
    split
    · rename_i heq
      exact iff_of_true ⟨_, rfl⟩ ⟨g, heq ▸ hg⟩
    · rfl
  · rw [hnext]
    rw [hgroups] at h
    split at h
    · rename_i heq
      exact heq ▸ hfresh id g hg
    · exact hfresh id' g' h
  · rw [hmap, hgroups]
    have hhere := (hentry guid id).mpr ⟨g, hg, hguid⟩
    by_cases heq : guid' = guid
    · subst heq
      rw [Finmap.lookup_erase]
      refine iff_of_false (fun h => nomatch h) ?_
      rintro ⟨g', hg', hmem'⟩
      split at hg'
      · rw [← Option.some.inj hg'] at hmem'
        exact Finset.notMem_erase guid' g.players hmem'
      · rename_i hne
        have hthere := (hentry guid' id').mpr ⟨g', hg', hmem'⟩
        exact hne (Option.some.inj (hthere.symm.trans hhere))
    · rw [Finmap.lookup_erase_ne heq, hentry]
      split
      · rename_i hid
        subst hid
        constructor
        · rintro ⟨g', hg', hmem'⟩
          obtain rfl : g = g' := Option.some.inj (hg.symm.trans hg')
          exact ⟨_, rfl, Finset.mem_erase.mpr ⟨heq, hmem'⟩⟩
        · rintro ⟨g', hg', hmem'⟩
          rw [← Option.some.inj hg'] at hmem'
          exact ⟨g, hg, Finset.mem_of_mem_erase hmem'⟩
      · rfl
  · rw [hgroups] at h
    split at h
    · exact Option.some.inj h ▸ hothers
    · exact hnonempty id' g' h
  · rw [hlists] at hid'
    rw [hgroups] at h
    split at h
    · rename_i heq
      subst heq
      rw [← Option.some.inj h]
      exact hteam p id' hid' g hg
    · exact hteam p id' hid' g' h

/-- What one call of `RemovePlayer` does before it calls itself. -/
theorem removeStep_spec (hq : InOrder q) {guid : ℕ} (hid : q.queuedPlayers.lookup guid = some id) :
    ∃ q' o, q.removeStep guid = some (q', o) ∧ InOrder q' ∧
      (∀ id', id' ≠ id → q'.groups id' = q.groups id') ∧
      (∀ g', q'.groups id = some g' → g'.players ⊆ (q.group id).players) ∧
      ∀ next, o = some next → q'.queuedPlayers.lookup next = some id := by
  obtain ⟨g, hg, hguid⟩ := (hq.recorded.entry guid id).mp hid
  obtain ⟨p, hp, hfound⟩ := hq.findGroup hg
  have hgroup := BattlegroundQueue.group_eq hg
  unfold BattlegroundQueue.removeStep
  rw [hid]
  dsimp only
  rw [hfound]
  dsimp only
  rw [hgroup]
  split
  · rename_i hothers
    have horder := hq.leaveGroup hg hguid hothers
    refine ⟨_, _, rfl, horder, fun id' hne => ?_, fun g' hg' => ?_, fun next hnext => ?_⟩
    · rw [BattlegroundQueue.groups_modifyGroup, if_neg hne]
      rfl
    · rw [BattlegroundQueue.groups_modifyGroup, if_pos rfl] at hg'
      obtain ⟨g₁, -, rfl⟩ := Option.map_eq_some_iff.mp hg'
      exact Finset.erase_subset _ _
    · split at hnext
      · refine (horder.recorded.entry next id).mpr ⟨{ g with players := g.players.erase guid }, ?_, ?_⟩
        · rw [BattlegroundQueue.groups_modifyGroup, if_pos rfl]
          have hsame : (q.erasePlayer guid).groups = q.groups := rfl
          rw [hsame, hg]
          rfl
        · rw [← Option.some.inj hnext]
          exact Finset.min'_mem _ _
      · nomatch hnext
  · rename_i hlast
    have hplayers : g.players = {guid} := by
      rw [Finset.not_nonempty_iff_eq_empty, Finset.erase_eq_empty_iff] at hlast
      exact hlast.resolve_left fun h => Finset.notMem_empty guid (h ▸ hguid)
    refine ⟨_, _, rfl, hq.deleteGroup hg hp hplayers, fun id' hne => ?_, fun g' hg' => ?_,
      fun next h => nomatch h⟩
    · exact Function.update_of_ne hne _ _
    · have hnone : ((q.erasePlayer guid).deleteGroup id p).groups id = none :=
        Function.update_self ..
      rw [hnone] at hg'
      nomatch hg'

/-- **A player is removed**, and others of a rated group with him.  Induction on the calls. -/
theorem removePlayer_spec (q : BattlegroundQueue) (guid : ℕ) (hq : InOrder q) (id : ℕ)
    (hid : q.queuedPlayers.lookup guid = some id) :
    InOrder (q.removePlayer guid) ∧
      (∀ id', id' ≠ id → (q.removePlayer guid).groups id' = q.groups id') ∧
      ∀ g', (q.removePlayer guid).groups id = some g' → g'.players ⊆ (q.group id).players := by
  obtain ⟨q', o, hstep, horder, hothers, hfewer, hgoes⟩ := removeStep_spec hq hid
  unfold BattlegroundQueue.removePlayer
  split
  · rename_i hnone
    rw [hstep] at hnone
    cases hnone
  · rename_i q₁ h₁
    obtain ⟨rfl, -⟩ := Prod.mk.inj (Option.some.inj (hstep.symm.trans h₁))
    exact ⟨horder, hothers, hfewer⟩
  · rename_i q₁ next h₁
    obtain ⟨rfl, rfl⟩ := Prod.mk.inj (Option.some.inj (hstep.symm.trans h₁))
    have hlt := BattlegroundQueue.card_removeStep h₁
    obtain ⟨horder', hothers', hfewer'⟩ :=
      removePlayer_spec q' next horder id (hgoes next rfl)
    refine ⟨horder', fun id' hne => (hothers' id' hne).trans (hothers id' hne), fun g' hg' => ?_⟩
    have hsub := hfewer' g' hg'
    cases hkept : q'.groups id with
    | none =>
      have hempty : (q'.group id).players = ∅ := by
        unfold BattlegroundQueue.group
        rw [hkept]
        rfl
      rw [hempty] at hsub
      exact hsub.trans (Finset.empty_subset _)
    | some g₁ =>
      rw [BattlegroundQueue.group_eq hkept] at hsub
      exact hsub.trans (hfewer g₁ hkept)
termination_by q.queuedPlayers.keys.card

theorem InOrder.removePlayer (hq : InOrder q) (guid : ℕ) : InOrder (q.removePlayer guid) := by
  cases hid : q.queuedPlayers.lookup guid with
  | some id => exact (removePlayer_spec q guid hq id hid).1
  | none =>
    have hstep : q.removeStep guid = none := by
      unfold BattlegroundQueue.removeStep
      rw [hid]
    unfold BattlegroundQueue.removePlayer
    split
    · exact hq
    · rename_i h
      rw [hstep] at h
      cases h
    · rename_i h
      rw [hstep] at h
      cases h

/-- The group is found, and deleted with its last player. -/
theorem InOrder.removesWell (hq : InOrder q) (guid : ℕ) : RemovesWell q guid := by
  intro id hid
  obtain ⟨g, hg, -⟩ := (hq.recorded.entry guid id).mp hid
  obtain ⟨p, hp, hfound⟩ := hq.findGroup hg
  obtain ⟨horder, hothers, hfewer⟩ := removePlayer_spec q guid hq id hid
  have hgroup := BattlegroundQueue.group_eq hg
  refine ⟨⟨p, hfound, hp⟩, fun hgone guid' hguid' => ?_, fun hleft => ?_⟩
  · rw [hgroup] at hguid'
    have hbefore := (hq.recorded.entry guid' id).mpr ⟨g, hg, hguid'⟩
    cases hafter : (q.removePlayer guid).queuedPlayers.lookup guid' with
    | none => rfl
    | some id' =>
      obtain ⟨g', hg', hmem⟩ := (horder.recorded.entry guid' id').mp hafter
      have hne : id' ≠ id := by
        rintro rfl
        rw [hgone] at hg'
        nomatch hg'
      rw [hothers id' hne] at hg'
      have hother := (hq.recorded.entry guid' id').mpr ⟨g', hg', hmem⟩
      exact absurd (Option.some.inj (hother.symm.trans hbefore)) hne
  · cases hafter : (q.removePlayer guid).groups id with
    | none => rfl
    | some g' =>
      obtain ⟨guid', hmem⟩ := horder.recorded.nonempty id g' hafter
      have hentry := (horder.recorded.entry guid' id).mpr ⟨g', hafter, hmem⟩
      exact absurd (hentry.symm.trans (hleft guid' (hfewer g' hafter hmem))) (Option.some_ne_none id)

/-! ## 4. Updates -/

/-- What does not write the team of an object keeps the order of the lists it has. -/
theorem InOrder.of_same (hq : InOrder q) (h : SameMembers q q')
    (hlists : q'.queuedGroups = q.queuedGroups)
    (hteam : ∀ id g', q'.groups id = some g' → ∃ g, q.groups id = some g ∧ g.team = g'.team) :
    InOrder q' := by
  refine ⟨hq.listed.of_same h hlists, hq.recorded.of_same h, fun p id hid g' hg' => ?_⟩
  obtain ⟨g, hg, heq⟩ := hteam id g' hg'
  rw [hlists] at hid
  exact heq ▸ hq.team p id hid g hg

theorem sameMembers_invite (q : BattlegroundQueue) (id instanceId : ℕ) (side : TeamId) :
    SameMembers q (q.inviteGroupToBG id instanceId side) :=
  sameMembers_modifyGroup q id fun _ => rfl

section

variable (hq : InOrder q)
include hq

/-- An invitation to the team a group has. -/
theorem InOrder.invite (id instanceId : ℕ) :
    InOrder (q.inviteGroupToBG id instanceId (q.group id).team) := by
  refine hq.of_same (sameMembers_invite q id instanceId _) rfl fun id' g' hg' => ?_
  unfold BattlegroundQueue.inviteGroupToBG at hg'
  rw [BattlegroundQueue.groups_modifyGroup] at hg'
  split at hg'
  · rename_i heq
    subst heq
    obtain ⟨g, hg, rfl⟩ := Option.map_eq_some_iff.mp hg'
    exact ⟨g, hg, (congrArg GroupQueueInfo.team (BattlegroundQueue.group_eq hg)).symm⟩
  · exact ⟨g', hg', rfl⟩

theorem InOrder.inviteAll (instanceId : ℕ) (ids : List ℕ) : InOrder (q.inviteAll instanceId ids) :=
  List.foldlRecOn ids _ hq fun _ h id _ => h.invite id instanceId

theorem InOrder.fillRunning (invitationType : ℕ) (bracket : BracketId) (bg : RunningBattleground) :
    InOrder (q.fillRunning invitationType bracket bg) :=
  (hq.inviteAll _ _).inviteAll _ _

/-- A group changes lists of its team. -/
theorem InOrder.transfer {src dst : Place} (hmem : id ∈ q.queuedGroups src) (hne : src ≠ dst)
    (hteam : src.team = dst.team) : InOrder (q.transfer id src dst) := by
  refine ⟨hq.listed.transfer hne hmem, hq.recorded.of_same (sameMembers_transfer q id src dst),
    fun p id' hid' g hg => ?_⟩
  rw [hq.listed.mem_transfer hne hmem] at hid'
  split at hid'
  · rename_i heq
    rw [hid', ← hteam]
    exact hq.team src id' (heq ▸ hmem) g hg
  · exact hq.team p id' hid' g hg

theorem InOrder.demotePremade (u : Update) (minPlayers : ℕ) (team : TeamId) :
    InOrder (q.demotePremade u minPlayers team) := by
  unfold BattlegroundQueue.demotePremade
  dsimp only
  split
  · exact hq
  · rename_i id ids hlist
    split
    · exact hq.transfer (hlist ▸ List.mem_cons_self) (fun h => nomatch congrArg Place.kind h) rfl
    · exact hq

theorem InOrder.checkPremadeMatch (u : Update) (t : Template) :
    InOrder (q.checkPremadeMatch u t).1 := by
  unfold BattlegroundQueue.checkPremadeMatch
  split
  · exact hq
  split
  · split
    · exact hq
    · exact (hq.inviteAll _ _).inviteAll _ _
  · exact (hq.demotePremade u _ .alliance).demotePremade u _ .horde

theorem InOrder.beforeSearch (u : Update) : InOrder (q.beforeSearch u).1 := by
  have hfilled : InOrder
      (u.running.foldl (fun q bg => q.fillRunning u.invitationType u.bracketId bg) q) :=
    List.foldlRecOn u.running _ hq fun _ h bg _ => h.fillRunning _ _ bg
  unfold BattlegroundQueue.beforeSearch
  split
  · exact hq
  · dsimp only
    split
    · exact hfilled
    · exact hfilled.checkPremadeMatch u _

end

/-! ## 5. Pools -/

/-- A pool has taken some of the groups, in their order, that are not invited. -/
structure Takes (q : BattlegroundQueue) (pool pool' : SelectionPool) (ids taken : List ℕ) : Prop where
  sublist : taken.Sublist ids
  selected : pool'.selectedGroups = pool.selectedGroups ++ taken
  notInvited : ∀ id ∈ taken, q.isInvited id = false
  count : pool'.playerCount = pool.playerCount + (taken.map q.size).sum

theorem Takes.nothing (pool : SelectionPool) (ids : List ℕ) : Takes q pool pool ids [] :=
  ⟨List.nil_sublist _, (List.append_nil _).symm, fun _ h => absurd h List.not_mem_nil, rfl⟩

variable {ids : List ℕ}

theorem Takes.skip {pool pool' : SelectionPool} {taken : List ℕ} (id : ℕ)
    (h : Takes q pool pool' ids taken) : Takes q pool pool' (id :: ids) taken :=
  ⟨h.sublist.cons id, h.selected, h.notInvited, h.count⟩

/-- The group is taken, or the pool is as it was. -/
theorem addGroup_cases (desiredCount id : ℕ) (pool : SelectionPool) :
    q.isInvited id = false ∧ pool.playerCount + q.size id ≤ desiredCount ∧
      pool.addGroup q desiredCount id =
        (⟨pool.selectedGroups ++ [id], pool.playerCount + q.size id⟩, true) ∨
    (q.isInvited id = true ∨ desiredCount < pool.playerCount + q.size id) ∧
      pool.addGroup q desiredCount id = (pool, decide (pool.playerCount < desiredCount)) := by
  unfold SelectionPool.addGroup
  split
  · rename_i h
    exact Or.inl ⟨by simpa using h.1, h.2, rfl⟩
  · rename_i h
    refine Or.inr ⟨?_, rfl⟩
    rcases Decidable.not_and_iff_or_not.mp h with hinvited | hfull
    · exact Or.inl (not_not.mp hinvited)
    · exact Or.inr (Nat.lt_of_not_le hfull)

theorem Takes.cons {pool pool' : SelectionPool} {taken : List ℕ} (hfree : q.isInvited id = false)
    (h : Takes q ⟨pool.selectedGroups ++ [id], pool.playerCount + q.size id⟩ pool' ids taken) :
    Takes q pool pool' (id :: ids) (id :: taken) := by
  refine ⟨h.sublist.cons_cons id, ?_, fun id' hid' => ?_, ?_⟩
  · rw [h.selected, List.append_assoc]
    rfl
  · rcases List.mem_cons.mp hid' with rfl | hid'
    · exact hfree
    · exact h.notInvited id' hid'
  · rw [h.count, List.map_cons, List.sum_cons, Nat.add_assoc]

theorem takes_addNotInvited (desiredCount : ℕ) (ids : List ℕ) (pool : SelectionPool) :
    ∃ taken, Takes q pool (pool.addNotInvited q desiredCount ids) ids taken := by
  induction ids generalizing pool with
  | nil => exact ⟨[], .nothing pool []⟩
  | cons id ids ih =>
    unfold SelectionPool.addNotInvited
    split
    · obtain ⟨taken, h⟩ := ih pool
      exact ⟨taken, h.skip id⟩
    · rcases addGroup_cases (q := q) desiredCount id pool with ⟨hfree, -, heq⟩ | ⟨-, heq⟩ <;>
        rw [heq] <;> dsimp only
      · obtain ⟨taken, h⟩ := ih ⟨pool.selectedGroups ++ [id], pool.playerCount + q.size id⟩
        exact ⟨id :: taken, h.cons hfree⟩
      · split
        · obtain ⟨taken, h⟩ := ih pool
          exact ⟨taken, h.skip id⟩
        · exact ⟨[], .nothing pool _⟩

/-! ## 6. Skirmishes -/

namespace BattlegroundQueue

theorem sublist_of_after {last : ℕ} {rest : List ℕ} (h : after last ids = some rest) :
    rest.Sublist ids := by
  induction ids with
  | nil => nomatch h
  | cons x xs ih =>
    unfold after at h
    split at h
    · exact Option.some.inj h ▸ List.sublist_cons_self x xs
    · exact (ih h).cons x

/-- A group after `last` is erased where it is. -/
theorem after_erase {last : ℕ} {rest : List ℕ} (hnodup : ids.Nodup) (h : after last ids = some rest)
    (hid : id ∈ rest) :
    eraseAfter last id ids = ids.erase id ∧ after last (ids.erase id) = some (rest.erase id) := by
  induction ids with
  | nil => nomatch h
  | cons x xs ih =>
    obtain ⟨hx, hxs⟩ := List.nodup_cons.mp hnodup
    unfold after at h
    split at h
    · rename_i heq
      obtain rfl := Option.some.inj h
      have hne : x ≠ id := fun h => hx (h ▸ hid)
      rw [List.erase_cons_tail (by simpa using hne)]
      exact ⟨if_pos heq, if_pos heq⟩
    · rename_i hlast
      have hne : x ≠ id := fun heq => hx (heq ▸ (sublist_of_after h).subset hid)
      obtain ⟨herase, hafter⟩ := ih hxs h
      rw [List.erase_cons_tail (by simpa using hne), ← herase]
      refine ⟨if_neg hlast, ?_⟩
      rw [herase]
      exact (if_neg hlast).trans hafter

theorem changeTeam_eq {bracket : BracketId} {team : TeamId} {last : ℕ}
    (herase : eraseAfter last id (q.queuedGroups ⟨bracket, .normal, team⟩) =
      (q.queuedGroups ⟨bracket, .normal, team⟩).erase id) :
    q.changeTeam bracket team last id =
      (q.modifyGroup id fun g => { g with team := team.other }).transfer id
        ⟨bracket, .normal, team⟩ ⟨bracket, .normal, team.other⟩ := by
  unfold changeTeam
  dsimp only
  rw [herase]
  rfl

end BattlegroundQueue

theorem TeamId.other_ne (team : TeamId) : team.other ≠ team := by cases team <;> decide

/-- A group changes lists, and its team with them. -/
theorem InOrder.transferTeam (hq : InOrder q) {src dst : Place} (hmem : id ∈ q.queuedGroups src)
    (hne : src ≠ dst) :
    InOrder ((q.modifyGroup id fun g => { g with team := dst.team }).transfer id src dst) := by
  have hsame : SameMembers q (q.modifyGroup id fun g => { g with team := dst.team }) :=
    sameMembers_modifyGroup q id fun _ => rfl
  have hlisted := hq.listed.of_same hsame rfl
  refine ⟨hlisted.transfer hne hmem,
    (hq.recorded.of_same hsame).of_same (sameMembers_transfer _ id src dst), fun p id' hid' g hg => ?_⟩
  rw [hlisted.mem_transfer hne hmem] at hid'
  have hg' : (q.modifyGroup id fun g => { g with team := dst.team }).groups id' = some g := hg
  rw [BattlegroundQueue.groups_modifyGroup] at hg'
  split at hid'
  · rw [if_pos ‹_›] at hg'
    obtain ⟨g₁, -, rfl⟩ := Option.map_eq_some_iff.mp hg'
    rw [hid']
  · rw [if_neg ‹_›] at hg'
    exact hq.team p id' hid' g hg'

/-- All of `ids`, which are after `last`, go over to the other team. -/
theorem InOrder.changeTeams {bracket : BracketId} {team : TeamId} {last : ℕ} (ids : List ℕ) :
    ∀ {q : BattlegroundQueue} {rest : List ℕ}, InOrder q →
      BattlegroundQueue.after last (q.queuedGroups ⟨bracket, .normal, team⟩) = some rest →
      ids.Nodup → (∀ id ∈ ids, id ∈ rest) →
      InOrder (ids.foldl (fun q id => q.changeTeam bracket team last id) q) := by
  induction ids with
  | nil => exact fun hq _ _ _ => hq
  | cons id ids ih =>
    intro q rest hq hafter hnodup hids
    obtain ⟨hid, hnodup⟩ := List.nodup_cons.mp hnodup
    have hrest := hids id List.mem_cons_self
    obtain ⟨herase, hafter'⟩ := BattlegroundQueue.after_erase (hq.listed.nodup _) hafter hrest
    have hne : (⟨bracket, .normal, team⟩ : Place) ≠ ⟨bracket, .normal, team.other⟩ :=
      fun h => team.other_ne (congrArg Place.team h).symm
    have hmem := (BattlegroundQueue.sublist_of_after hafter).subset hrest
    rw [List.foldl_cons, BattlegroundQueue.changeTeam_eq herase]
    have hlist : ((q.modifyGroup id fun g => { g with team := team.other }).transfer id
        ⟨bracket, .normal, team⟩ ⟨bracket, .normal, team.other⟩).queuedGroups
          ⟨bracket, .normal, team⟩ = (q.queuedGroups ⟨bracket, .normal, team⟩).erase id :=
      (BattlegroundQueue.queuedGroups_transfer ..).trans (if_pos rfl)
    refine ih (hq.transferTeam hmem hne) (hlist.symm ▸ hafter') hnodup fun id' hid' => ?_
    exact (List.mem_erase_of_ne fun heq : id' = id => hid (heq ▸ hid')).mpr
      (hids id' (List.mem_cons_of_mem id hid'))

theorem InOrder.checkSkirmish (hq : InOrder q) {bracket : BracketId} {minPlayers : ℕ}
    {pools pools' : Pools} (h : q.checkSkirmishForSameFaction bracket minPlayers pools =
      some (pools', q')) : InOrder q' := by
  unfold BattlegroundQueue.checkSkirmishForSameFaction at h
  split at h
  · nomatch h
  rename_i team _
  split at h
  · nomatch h
  split at h
  · nomatch h
  rename_i rest hafter
  dsimp only at h
  split at h
  · nomatch h
  obtain ⟨-, rfl⟩ := Prod.mk.inj (Option.some.inj h)
  obtain ⟨taken, htakes⟩ := takes_addNotInvited (q := q) minPlayers rest .init
  have hselected : (SelectionPool.init.addNotInvited q minPlayers rest).selectedGroups = taken :=
    htakes.selected
  rw [hselected]
  refine hq.changeTeams taken hafter ?_ fun id hid => htakes.sublist.subset hid
  have hrest : rest.Sublist (q.queuedGroups ⟨bracket, .normal, team⟩) :=
    BattlegroundQueue.sublist_of_after hafter
  exact (hq.listed.nodup _).sublist (htakes.sublist.trans hrest)

theorem InOrder.normalMatch (hq : InOrder q) (u : Update) (t : Template) :
    InOrder (q.normalMatch u t) := by
  have hfound : ∀ pools q', q.findNormalMatch u t = some (pools, q') → InOrder q' := by
    intro pools q' h
    unfold BattlegroundQueue.findNormalMatch at h
    dsimp only at h
    split at h
    · obtain ⟨-, rfl⟩ := Prod.mk.inj (Option.some.inj h)
      exact hq
    · split at h
      · exact hq.checkSkirmish h
      · nomatch h
  unfold BattlegroundQueue.normalMatch
  split
  · exact hq
  · rename_i pools q' h
    split
    · exact hfound pools q' h
    · exact ((hfound pools q' h).inviteAll _ _).inviteAll _ _

/-! ## 7. Rated matches -/

/-- The two teams are in the lists of the bracket, and one is on its side already. -/
theorem findRatedMatch_spec {u : Update} {aTeam hTeam : ℕ}
    (h : q.findRatedMatch u = some (aTeam, hTeam)) (hq : Listed q) :
    aTeam ≠ hTeam ∧ ∃ a b, aTeam ∈ q.queuedGroups ⟨u.bracketId, .premade, a⟩ ∧
      hTeam ∈ q.queuedGroups ⟨u.bracketId, .premade, b⟩ := by
  have hsecond : ∀ p first id, q.findSecond u p first = some id →
      first ≠ id ∧ id ∈ q.queuedGroups p := by
    intro p first id h
    have hprop := List.find?_some h
    refine ⟨?_, List.dropWhile_sublist _ |>.subset (List.mem_of_find?_eq_some h)⟩
    rintro rfl
    simp at hprop
  unfold BattlegroundQueue.findRatedMatch at h
  dsimp only at h
  split at h
  · rename_i ali horde hali hhorde
    obtain ⟨rfl, rfl⟩ := Prod.mk.inj (Option.some.inj h)
    have hmem := List.mem_of_find?_eq_some hali
    have hmem' := List.mem_of_find?_eq_some hhorde
    refine ⟨?_, _, _, hmem, hmem'⟩
    rintro rfl
    exact nomatch congrArg Place.team (hq.apart _ _ _ hmem hmem')
  · rename_i ali hali _
    obtain ⟨id, hid, heq⟩ := Option.map_eq_some_iff.mp h
    obtain ⟨rfl, rfl⟩ := Prod.mk.inj heq
    obtain ⟨hne, hmem⟩ := hsecond _ _ _ hid
    exact ⟨hne, _, _, List.mem_of_find?_eq_some hali, hmem⟩
  · rename_i horde _ hhorde
    obtain ⟨id, hid, heq⟩ := Option.map_eq_some_iff.mp h
    obtain ⟨rfl, rfl⟩ := Prod.mk.inj heq
    obtain ⟨hne, hmem⟩ := hsecond _ _ _ hid
    exact ⟨hne, _, _, List.mem_of_find?_eq_some hhorde, hmem⟩
  · nomatch h

/-- A team is on the side it is to play for. -/
theorem Listed.toSide (hq : Listed q) {bracket : BracketId} (side : TeamId) {team : TeamId}
    (hmem : id ∈ q.queuedGroups ⟨bracket, .premade, team⟩) (hteam : (q.group id).team = team) :
    Listed (q.toSide bracket side id) ∧
      ∀ p id', id' ∈ (q.toSide bracket side id).queuedGroups p ↔
        if id' = id then p = ⟨bracket, .premade, side⟩ else id' ∈ q.queuedGroups p := by
  unfold BattlegroundQueue.toSide
  by_cases hside : (q.group id).team = side
  · rw [if_neg (not_not_intro hside)]
    obtain rfl := hteam.symm.trans hside
    refine ⟨hq, fun p id' => ?_⟩
    split
    · rename_i heq
      subst heq
      exact ⟨fun h => hq.apart _ _ _ h hmem, fun h => h ▸ hmem⟩
    · rfl
  · rw [if_pos hside]
    have hother : team = side.other := by
      rw [hteam] at hside
      revert hside
      cases team <;> cases side <;> decide
    rw [hother] at hmem
    have hne : (⟨bracket, .premade, side.other⟩ : Place) ≠ ⟨bracket, .premade, side⟩ :=
      fun h => side.other_ne (congrArg Place.team h)
    exact ⟨hq.transfer hne hmem, hq.mem_transfer hne hmem⟩

theorem groups_toSide (q : BattlegroundQueue) (bracket : BracketId) (side : TeamId) (id : ℕ) :
    (q.toSide bracket side id).groups = q.groups := by
  unfold BattlegroundQueue.toSide
  split <;> rfl

theorem sameMembers_toSide (q : BattlegroundQueue) (bracket : BracketId) (side : TeamId) (id : ℕ) :
    SameMembers q (q.toSide bracket side id) := by
  unfold BattlegroundQueue.toSide
  split
  · exact sameMembers_transfer q id _ _
  · exact .refl q

theorem InOrder.ratedMatch (hq : InOrder q) (u : Update) : InOrder (q.ratedMatch u) := by
  unfold BattlegroundQueue.ratedMatch
  split
  swap
  · exact hq
  rename_i aTeam hTeam instanceId hfound _
  obtain ⟨hne, a, b, hmema, hmemb⟩ := findRatedMatch_spec hfound hq.listed
  have hteam : ∀ {id team}, id ∈ q.queuedGroups ⟨u.bracketId, .premade, team⟩ →
      (q.group id).team = team := by
    intro id team hid
    obtain ⟨g, hg⟩ := (hq.listed.stored id).mpr ⟨_, hid⟩
    rw [BattlegroundQueue.group_eq hg]
    exact hq.team _ id hid g hg
  -- both go to their sides
  obtain ⟨hlisted₁, hmem₁⟩ := hq.listed.toSide .alliance hmema (hteam hmema)
  have hsame₁ := sameMembers_toSide q u.bracketId .alliance aTeam
  have hgroups₁ := groups_toSide q u.bracketId .alliance aTeam
  generalize q.toSide u.bracketId .alliance aTeam = q₁ at *
  have hmemb₁ : hTeam ∈ q₁.queuedGroups ⟨u.bracketId, .premade, b⟩ := by
    rw [hmem₁, if_neg hne.symm]
    exact hmemb
  have hteamb : (q₁.group hTeam).team = b := by
    unfold BattlegroundQueue.group
    rw [hgroups₁]
    exact hteam hmemb
  obtain ⟨hlisted₂, hmem₂⟩ := hlisted₁.toSide .horde hmemb₁ hteamb
  have hsame₂ := hsame₁.trans (sameMembers_toSide q₁ u.bracketId .horde hTeam)
  have hgroups₂ : (q₁.toSide u.bracketId .horde hTeam).groups = q.groups :=
    (groups_toSide q₁ u.bracketId .horde hTeam).trans hgroups₁
  generalize q₁.toSide u.bracketId .horde hTeam = q₂ at *
  -- and are invited to them
  have hinvited : SameMembers q₂
      ((q₂.inviteGroupToBG aTeam instanceId .alliance).inviteGroupToBG hTeam instanceId .horde) :=
    (sameMembers_invite q₂ aTeam instanceId .alliance).trans (sameMembers_invite _ hTeam _ _)
  refine ⟨hlisted₂.of_same hinvited rfl, (hq.recorded.of_same hsame₂).of_same hinvited,
    fun p id hid g hg => ?_⟩
  have hid₂ : id ∈ q₂.queuedGroups p := hid
  unfold BattlegroundQueue.inviteGroupToBG at hg
  rw [BattlegroundQueue.groups_modifyGroup] at hg
  rw [hmem₂] at hid₂
  by_cases hh : id = hTeam
  · rw [if_pos hh] at hg hid₂
    obtain ⟨g₁, -, rfl⟩ := Option.map_eq_some_iff.mp hg
    rw [hid₂]
  · rw [if_neg hh] at hg hid₂
    rw [BattlegroundQueue.groups_modifyGroup] at hg
    rw [hmem₁] at hid₂
    by_cases ha : id = aTeam
    · rw [if_pos ha] at hg hid₂
      obtain ⟨g₁, -, rfl⟩ := Option.map_eq_some_iff.mp hg
      rw [hid₂]
    · rw [if_neg ha] at hg hid₂
      rw [hgroups₂] at hg
      exact hq.team p id hid₂ g hg

/-! ## 8. Runs -/

theorem InOrder.step (hq : InOrder q) {c : Call} (hc : JoinsNew q c) :
    InOrder (Battlegrounds.step q c) := by
  cases c with
  | addGroup => exact hq.addGroup _ _ _ _ _ _ _ _ _ hc
  | removePlayer guid => exact hq.removePlayer guid
  | update u =>
    have hbefore := hq.beforeSearch u
    change InOrder (q.battlegroundQueueUpdate u)
    unfold BattlegroundQueue.battlegroundQueueUpdate
    split
    · rename_i q₁ h
      rw [h] at hbefore
      exact hbefore
    · rename_i q₁ t h
      rw [h] at hbefore
      split
      · exact hbefore.normalMatch u t
      · split
        · exact hbefore.ratedMatch u
        · exact hbefore

def firstBracket : BracketId := ⟨0, by decide⟩

/-- A player joins, then a group of two, and one of these leaves. -/
def threeJoin : List Call :=
  [.addGroup firstBracket .horde 7 [] false false 0 0 0,
    .addGroup firstBracket .horde 8 [9] false true 0 0 0, .removePlayer 8]

end HungerGames.Battlegrounds
