/-
# Proposals are announced (`LFGMgr::Update`)

An update lets the queues look for groups, one queue after the other.  Every match is a proposal
with the next id.  If there is a new id, the update goes through the proposals from the one with
the last id on, sets the states of their players and groups and tells them.  So it tells the
players of the last proposal of the step, and those of the others only when the ids have started
again at 0 just then (`allAnnounced_iff`).

The rest of the manager is taken as it comes: before each call, other code may have done anything
to the queues, the states and the groups, but nothing to the proposals.
-/
import HungerGames.Lfg.Conservation
import HungerGames.System.Run

namespace HungerGames.Lfg

open HungerGames.System

/-! ## 1. The manager -/

/-- The messages of an announcement. -/
inductive Sent where
  /-- `SendLfgUpdateParty`, of `LFG_UPDATETYPE_PROPOSAL_BEGIN` -/
  | updateParty (guid : ObjectGuid)
  /-- `SendLfgUpdatePlayer`, of `LFG_UPDATETYPE_PROPOSAL_BEGIN` -/
  | updatePlayer (guid : ObjectGuid)
  /-- `SendLfgUpdateProposal` -/
  | updateProposal (guid : ObjectGuid) (proposalId : ℕ) (proposal : LfgProposal)

/-- The queues, the states of players and groups, and the groups of players. -/
structure Parties where
  queuesStore : SortedMap ℕ LFGQueue
  getState : ObjectGuid → LfgState
  /-- 0 for a player without a group -/
  getGroup : ObjectGuid → ObjectGuid

structure LFGMgr where
  lfgProposalId : ℕ
  proposalsStore : SortedMap ℕ LfgProposal
  parties : Parties
  /-- the messages of this call -/
  sent : List Sent

namespace LFGMgr

variable (mgr : LFGMgr)

/-- The constructor. -/
def init : LFGMgr := ⟨1, .empty, ⟨.empty, fun _ => .none, fun _ => 0⟩, []⟩

/-- `AddProposal` -/
def addProposal (proposal : LfgProposal) : LFGMgr :=
  let id := (mgr.lfgProposalId + 1) % 2 ^ 32
  { mgr with lfgProposalId := id, proposalsStore := mgr.proposalsStore.insert id proposal }

/-- A queue looks for groups. -/
def findGroupsIn (m : Manager) (entry : ℕ × LFGQueue) : LFGMgr :=
  let found := (entry.2.findGroups m).1
  found.proposals.foldl addProposal { mgr with
    parties := { mgr.parties with
      queuesStore := mgr.parties.queuesStore.insert entry.1 found.queue } }

/-- The queues look for groups. -/
def findGroups (m : Manager) : LFGMgr :=
  mgr.parties.queuesStore.entries.foldl (fun mgr entry => mgr.findGroupsIn m entry) mgr

def setState (guid : ObjectGuid) (state : LfgState) : LFGMgr :=
  { mgr with parties := { mgr.parties with
      getState := Function.update mgr.parties.getState guid state } }

def send (message : Sent) : LFGMgr := { mgr with sent := mgr.sent ++ [message] }

/-- A player of a proposal is told. -/
def announceTo (proposalId : ℕ) (proposal : LfgProposal) (guid : ObjectGuid) : LFGMgr :=
  let mgr := mgr.setState guid .proposal
  let gguid := mgr.parties.getGroup guid
  let mgr :=
    if gguid ≠ 0 then (mgr.setState gguid .proposal).send (.updateParty guid)
    else mgr.send (.updatePlayer guid)
  mgr.send (.updateProposal guid proposalId proposal)

/-- The loop over the proposals, from some entry on; `none` when it is undefined: `UpdateProposal`
erases a proposal that is successful, and the loop goes on from the iterator that stood there. -/
def announce : List (ℕ × LfgProposal) → LFGMgr → Option LFGMgr
  | [], mgr => some mgr
  | (proposalId, proposal) :: rest, mgr =>
    if proposal.state = .success then none
    else announce rest
      (proposal.players.keys.foldl (fun mgr guid => mgr.announceTo proposalId proposal guid) mgr)

/-- The proposals whose time is over are removed. -/
def removeObsolete (currTime : ℕ) : LFGMgr :=
  mgr.proposalsStore.entries.foldl (fun mgr entry =>
    if entry.2.cancelTime < currTime then
      { mgr with proposalsStore := mgr.proposalsStore.erase entry.1 }
    else mgr) mgr

/-- `Update` up to the search: `parties` is what the removal of role checks, proposals and kicks
leaves of queues, states and groups. -/
def beforeSearch (m : Manager) (parties : Parties) : LFGMgr :=
  { mgr.removeObsolete m.time with parties, sent := [] }

/-- `Update`, when the dungeon finder is enabled. -/
def update (m : Manager) (parties : Parties) : Option LFGMgr :=
  let mgr := mgr.beforeSearch m parties
  let lastProposalId := mgr.lfgProposalId
  let mgr := mgr.findGroups m
  if lastProposalId ≠ mgr.lfgProposalId then
    announce (mgr.proposalsStore.entries.dropWhile fun entry => entry.1 ≠ mgr.lfgProposalId) mgr
  else some mgr

/-- The proposals of an update, in the order in which they are created. -/
def created (m : Manager) (parties : Parties) : List LfgProposal :=
  parties.queuesStore.entries.flatMap fun entry => (entry.2.findGroups m).1.proposals

/-- `UpdateProposal`, as far as the proposals are concerned. -/
def updateProposal (proposalId : ℕ) (guid : ObjectGuid) (accept : Bool) : LFGMgr :=
  match mgr.proposalsStore.lookup proposalId with
  | none => mgr
  | some proposal =>
    match proposal.players.lookup guid with
    | none => mgr
    | some player =>
      let player := { player with accept := if accept then .agree else .deny }
      let proposal := { proposal with players := proposal.players.insert guid player }
      let allAnswered := proposal.players.values.all fun player => player.accept = .agree
      if ¬ accept ∨ allAnswered then
        { mgr with proposalsStore := mgr.proposalsStore.erase proposalId }
      else { mgr with proposalsStore := mgr.proposalsStore.insert proposalId proposal }

end LFGMgr

inductive Call where
  | update (m : Manager) (parties : Parties)
  | updateProposal (proposalId : ℕ) (guid : ObjectGuid) (accept : Bool)
  /-- `LeaveLfg` removes a proposal -/
  | removeProposal (proposalId : ℕ)
  /-- other code -/
  | others (parties : Parties)

/-- A call; an update that is undefined is left out. -/
def call (mgr : LFGMgr) : Call → LFGMgr
  | .update m parties => (mgr.update m parties).getD mgr
  | .updateProposal proposalId guid accept => mgr.updateProposal proposalId guid accept
  | .removeProposal proposalId =>
    { mgr with proposalsStore := mgr.proposalsStore.erase proposalId }
  | .others parties => { mgr with parties }

/-! ## 2. What a queue proposes -/

/-- **A proposal is made of guids that come to one.** -/
theorem formed_findGroups {m : Manager} {q : LFGQueue} :
    ∀ p ∈ (q.findGroups m).1.proposals, ∃ q' check, LFGQueue.verdict m q' check = .formed p := by
  let Made : Search → Prop := fun s =>
    ∀ p ∈ s.proposals, ∃ q' check, LFGQueue.verdict m q' check = .formed p
  have hthese : ∀ s check, Made s → Made (s.checkThese m check).2 := by
    intro s check h
    unfold Search.checkThese
    cases hverdict : s.queue.verdict m check with
    | notQueued guid => exact h
    | cached compatibles => exact h
    | formed proposal =>
      intro p hp
      rcases List.mem_append.mp hp with hp | hp
      · exact h p hp
      · obtain rfl := List.mem_singleton.mp hp
        exact ⟨_, _, hverdict⟩
  have hsearch : ∀ check all s, Made s → Made (Search.findNewGroups m check all s).2.2 :=
    Search.findNewGroups_steps (R := fun s s' => Made s → Made s') (fun _ h => h)
      (fun h h' hs => h' (h hs)) (fun _ _ _ h => h) hthese
  have hloop : ∀ n x, Made x.1 → Made (Search.findGroupsLoop m n x).1 := by
    intro n
    induction n with
    | zero => exact fun _ h => h
    | succ n ih =>
      intro x h
      unfold Search.findGroupsLoop
      split
      · exact h
      · refine ih _ ?_
        unfold Search.findTurn
        dsimp only
        split
        · exact hsearch _ _ _ h
        · exact hsearch _ _ _ h
  exact hloop _ _ fun p hp => absurd hp List.not_mem_nil

theorem length_checkFrom {check : List Role → Option (List Role)}
    (hcheck : ∀ {roles assigned}, check roles = some assigned → assigned.length = roles.length)
    (after : List Role) : ∀ (before : List Role) {assigned : List Role} {counts : Role → ℕ},
      checkFrom check before after counts = some assigned →
        assigned.length = before.length + after.length := by
  induction after with
  | nil =>
    intro before assigned counts h
    unfold checkFrom at h
    split at h
    · obtain rfl := Option.some.inj h
      rfl
    · cases h
  | cons own after ih =>
    intro before assigned counts h
    unfold checkFrom at h
    split at h
    · cases h
    split at h
    · next result hresult =>
      obtain ⟨role, -, -, hfound⟩ := examineAll_error (h ▸ hresult)
      rw [hcheck hfound, List.length_append, List.length_cons, List.length_cons]
    · rw [ih (before ++ [own]) h, List.length_append, List.length_singleton, List.length_cons]
      omega

/-- Every player is assigned a role. -/
theorem length_checkRoles (n : ℕ) : ∀ {roles assigned : List Role},
    checkRoles n roles = some assigned → assigned.length = roles.length := by
  induction n with
  | zero => exact fun h => by cases h
  | succ n ih =>
    intro roles assigned h
    unfold checkRoles at h
    split at h
    · cases h
    · rw [length_checkFrom ih roles [] h, List.length_nil, Nat.zero_add]

theorem keys_assignRoles (roles : LfgRolesMap) : (LFGQueue.assignRoles roles).1.keys = roles.keys := by
  have hremoved : (removeLeader roles.values).length = roles.size :=
    (List.length_map _).trans (List.length_map _)
  unfold LFGQueue.assignRoles
  cases hfound : checkGroupRoles roles.values with
  | none => exact roles.keys_withValues hremoved
  | some assigned => exact roles.keys_withValues ((length_checkRoles _ hfound).trans hremoved)

theorem keys_ne_of_size {roles : LfgRolesMap} (h : roles.size % 2 ^ 8 = maxGroupSize) :
    roles.keys ≠ [] := by
  intro hnil
  have hzero : roles.size = 0 := (List.length_map _).symm.trans (congrArg List.length hnil)
  rw [hzero] at h
  exact absurd h (by decide)

/-- **It begins as a proposal that is asked about, and has players.** -/
theorem initiating_of_verdict {m : Manager} {q : LFGQueue} {check : List ObjectGuid}
    {p : LfgProposal} (h : q.verdict m check = .formed p) :
    p.state = .initiating ∧ p.players.keys ≠ [] := by
  obtain ⟨g, roles, dungeons, hformed⟩ := formed_of_verdict h
  have hkeys : p.players.keys = roles.keys := by
    rw [hformed.proposal]
    unfold LFGQueue.makeProposal
    rw [SortedMap.keys_withValues]
    exact List.length_map _
  refine ⟨by rw [hformed.proposal]; rfl, ?_⟩
  have hcombined := hformed.combined
  have hgathered := hformed.gathered
  have hplayers := hformed.numPlayers
  rw [hkeys]
  unfold LFGQueue.combine at hcombined
  split at hcombined
  · dsimp only at hcombined
    split at hcombined
    · cases hcombined
    next hcount =>
    split at hcombined
    · cases hcombined
    split at hcombined
    · cases hcombined
    obtain ⟨rfl, -⟩ := Prod.mk.inj (Except.ok.inj hcombined)
    rw [keys_assignRoles]
    refine keys_ne_of_size ?_
    have hmod := not_not.mp hcount
    unfold maxGroupSize at *
    omega
  · next hone =>
    obtain ⟨rfl, -⟩ := Prod.mk.inj (Except.ok.inj hcombined)
    rw [keys_assignRoles]
    rcases check with _ | ⟨guid, _ | ⟨guid', check⟩⟩
    · obtain rfl := Except.ok.inj hgathered
      cases hplayers
    · unfold LFGQueue.gather at hgathered
      rw [if_pos (by decide)] at hgathered
      cases hdata : q.queueDataStore guid with
      | none =>
        rw [hdata] at hgathered
        cases hgathered
      | some data =>
        rw [hdata] at hgathered
        obtain rfl := Except.ok.inj hgathered
        rw [List.headD_cons, data_eq hdata]
        refine keys_ne_of_size (Eq.trans ?_ hplayers)
        show _ = (0 + data.roles.size) % 2 ^ 8
        rw [Nat.zero_add]
    · exact absurd (by simp) hone

/-! ## 3. Ids -/

/-- Everything but the queues is the same. -/
structure SameButQueues (mgr mgr' : LFGMgr) : Prop where
  id : mgr'.lfgProposalId = mgr.lfgProposalId
  store : mgr'.proposalsStore = mgr.proposalsStore
  state : mgr'.parties.getState = mgr.parties.getState
  group : mgr'.parties.getGroup = mgr.parties.getGroup
  sent : mgr'.sent = mgr.sent

theorem SameButQueues.foldl_addProposal (ps : List LfgProposal) : ∀ {mgr mgr' : LFGMgr},
    SameButQueues mgr mgr' →
      SameButQueues (ps.foldl LFGMgr.addProposal mgr) (ps.foldl LFGMgr.addProposal mgr') := by
  induction ps with
  | nil => exact fun h => h
  | cons p ps ih =>
    intro mgr mgr' h
    refine ih ⟨?_, ?_, h.state, h.group, h.sent⟩
    · unfold LFGMgr.addProposal
      rw [h.id]
    · unfold LFGMgr.addProposal
      rw [h.id, h.store]

/-- **The queues' proposals are added one after the other.** -/
theorem findGroups_same (m : Manager) (mgr : LFGMgr) : SameButQueues
    ((mgr.parties.queuesStore.entries.flatMap fun entry =>
      (entry.2.findGroups m).1.proposals).foldl LFGMgr.addProposal mgr) (mgr.findGroups m) := by
  have hfold : ∀ (entries : List (ℕ × LFGQueue)) {mgr mgr' : LFGMgr}, SameButQueues mgr mgr' →
      SameButQueues ((entries.flatMap fun entry =>
        (entry.2.findGroups m).1.proposals).foldl LFGMgr.addProposal mgr)
        (entries.foldl (fun mgr entry => mgr.findGroupsIn m entry) mgr') := by
    intro entries
    induction entries with
    | nil => exact fun h => h
    | cons entry entries ih =>
      intro mgr mgr' h
      rw [List.flatMap_cons, List.foldl_append, List.foldl_cons]
      refine ih ?_
      exact SameButQueues.foldl_addProposal _ ⟨h.id, h.store, h.state, h.group, h.sent⟩
  exact hfold _ ⟨rfl, rfl, rfl, rfl, rfl⟩

theorem lt_addProposal (mgr : LFGMgr) (p : LfgProposal) :
    (mgr.addProposal p).lfgProposalId < 2 ^ 32 :=
  Nat.mod_lt _ (by decide)

/-- The id after some proposals, and what else stays. -/
theorem foldl_addProposal_id (ps : List LfgProposal) : ∀ {mgr : LFGMgr},
    mgr.lfgProposalId < 2 ^ 32 →
      (ps.foldl LFGMgr.addProposal mgr).lfgProposalId =
          (mgr.lfgProposalId + ps.length) % 2 ^ 32 ∧
        (ps.foldl LFGMgr.addProposal mgr).parties = mgr.parties ∧
          (ps.foldl LFGMgr.addProposal mgr).sent = mgr.sent := by
  induction ps with
  | nil => exact fun h => ⟨(Nat.mod_eq_of_lt h).symm, rfl, rfl⟩
  | cons p ps ih =>
    intro mgr h
    obtain ⟨hid, hparties, hsent⟩ := ih (lt_addProposal mgr p)
    refine ⟨?_, hparties, hsent⟩
    rw [List.foldl_cons, hid, List.length_cons]
    show ((mgr.lfgProposalId + 1) % 2 ^ 32 + ps.length) % 2 ^ 32 = _
    omega

theorem mem_foldl_addProposal (ps : List LfgProposal) : ∀ {mgr : LFGMgr} {entry : ℕ × LfgProposal},
    entry ∈ (ps.foldl LFGMgr.addProposal mgr).proposalsStore.entries →
      entry ∈ mgr.proposalsStore.entries ∨ entry.2 ∈ ps := by
  induction ps with
  | nil => exact fun h => Or.inl h
  | cons p ps ih =>
    intro mgr entry h
    rcases ih h with h | h
    · rcases SortedMap.mem_insert.mp h with ⟨-, rfl⟩ | ⟨-, h⟩
      · exact Or.inr List.mem_cons_self
      · exact Or.inl h
    · exact Or.inr (List.mem_cons_of_mem _ h)

/-- Other ids keep their proposals. -/
theorem lookup_foldl_addProposal_of_ne (ps : List LfgProposal) : ∀ {mgr : LFGMgr} {id : ℕ},
    mgr.lfgProposalId < 2 ^ 32 →
      (∀ k < ps.length, (mgr.lfgProposalId + k + 1) % 2 ^ 32 ≠ id) →
        (ps.foldl LFGMgr.addProposal mgr).proposalsStore.lookup id =
          mgr.proposalsStore.lookup id := by
  induction ps with
  | nil => exact fun _ _ => rfl
  | cons p ps ih =>
    intro mgr id h hne
    have hfirst := hne 0 (Nat.succ_pos _)
    rw [List.foldl_cons, ih (lt_addProposal mgr p)]
    · exact (SortedMap.lookup_insert ..).trans (if_neg (Ne.symm hfirst))
    · intro k hk
      have hnext := hne (k + 1) (Nat.succ_lt_succ hk)
      show ((mgr.lfgProposalId + 1) % 2 ^ 32 + k + 1) % 2 ^ 32 ≠ id
      omega

/-- **A proposal is under its id**, when there are no more than there are ids. -/
theorem lookup_foldl_addProposal (ps : List LfgProposal) : ∀ {mgr : LFGMgr} {k : ℕ}
    {p : LfgProposal}, mgr.lfgProposalId < 2 ^ 32 → ps.length ≤ 2 ^ 32 → ps[k]? = some p →
      (ps.foldl LFGMgr.addProposal mgr).proposalsStore.lookup
        ((mgr.lfgProposalId + k + 1) % 2 ^ 32) = some p := by
  induction ps with
  | nil => exact fun _ _ h => by cases h
  | cons p' ps ih =>
    intro mgr k p h hlength hk
    have hnext := lt_addProposal mgr p'
    have hid : (mgr.addProposal p').lfgProposalId = (mgr.lfgProposalId + 1) % 2 ^ 32 := rfl
    rw [List.length_cons] at hlength
    rw [List.foldl_cons]
    cases k with
    | zero =>
      obtain rfl := Option.some_inj.mp hk
      rw [lookup_foldl_addProposal_of_ne ps hnext fun k hk => by rw [hid]; omega]
      exact (SortedMap.lookup_insert ..).trans (if_pos rfl)
    | succ k =>
      have hsame := ih hnext (Nat.le_of_succ_le hlength) hk
      rw [hid] at hsame
      rw [← hsame]
      congr 1
      omega

/-! ## 4. Players are told -/

/-- A player is in a proposal, his group too, and he has been told. -/
structure Told (mgr : LFGMgr) (proposalId : ℕ) (proposal : LfgProposal) (guid : ObjectGuid) :
    Prop where
  state : mgr.parties.getState guid = .proposal
  group : mgr.parties.getGroup guid ≠ 0 →
    mgr.parties.getState (mgr.parties.getGroup guid) = .proposal
  sent : .updateProposal guid proposalId proposal ∈ mgr.sent

/-- The players of a proposal are told. -/
def Announced (mgr : LFGMgr) (proposalId : ℕ) (proposal : LfgProposal) : Prop :=
  ∀ guid ∈ proposal.players.keys, Told mgr proposalId proposal guid

/-- What an announcement leaves, when all its messages are about proposals with these ids. -/
structure Tells (ids : ℕ → Prop) (mgr mgr' : LFGMgr) : Prop where
  id : mgr'.lfgProposalId = mgr.lfgProposalId
  store : mgr'.proposalsStore = mgr.proposalsStore
  group : mgr'.parties.getGroup = mgr.parties.getGroup
  state : ∀ guid, mgr.parties.getState guid = .proposal → mgr'.parties.getState guid = .proposal
  sent : ∀ message ∈ mgr.sent, message ∈ mgr'.sent
  about : ∀ guid proposalId proposal, .updateProposal guid proposalId proposal ∈ mgr'.sent →
    .updateProposal guid proposalId proposal ∈ mgr.sent ∨ ids proposalId

section Telling

variable {ids ids' : ℕ → Prop} {mgr mgr' mgr'' : LFGMgr} {proposalId : ℕ} {proposal : LfgProposal}

theorem Tells.refl (ids : ℕ → Prop) (mgr : LFGMgr) : Tells ids mgr mgr :=
  ⟨rfl, rfl, rfl, fun _ h => h, fun _ h => h, fun _ _ _ h => Or.inl h⟩

theorem Tells.trans (h : Tells ids mgr mgr') (h' : Tells ids mgr' mgr'') :
    Tells ids mgr mgr'' where
  id := h'.id.trans h.id
  store := h'.store.trans h.store
  group := h'.group.trans h.group
  state guid hguid := h'.state guid (h.state guid hguid)
  sent message hmessage := h'.sent message (h.sent message hmessage)
  about guid proposalId proposal hmessage :=
    (h'.about guid proposalId proposal hmessage).elim (h.about guid proposalId proposal) Or.inr

theorem Tells.mono (h : Tells ids mgr mgr') (hids : ∀ id, ids id → ids' id) :
    Tells ids' mgr mgr' :=
  ⟨h.id, h.store, h.group, h.state, h.sent,
    fun guid proposalId proposal hmessage =>
      (h.about guid proposalId proposal hmessage).imp_right (hids proposalId)⟩

theorem Told.of_tells {guid : ObjectGuid} (h : Told mgr proposalId proposal guid)
    (ht : Tells ids mgr mgr') : Told mgr' proposalId proposal guid where
  state := ht.state guid h.state
  group hne := by
    rw [ht.group] at hne ⊢
    exact ht.state _ (h.group hne)
  sent := ht.sent _ h.sent

/-- One player is told. -/
theorem tells_announceTo (mgr : LFGMgr) (proposalId : ℕ) (proposal : LfgProposal)
    (guid : ObjectGuid) : Tells (· = proposalId) mgr (mgr.announceTo proposalId proposal guid) ∧
      Told (mgr.announceTo proposalId proposal guid) proposalId proposal guid := by
  have hset : ∀ (mgr : LFGMgr) (guid guid' : ObjectGuid), mgr.parties.getState guid' = .proposal →
      (mgr.setState guid .proposal).parties.getState guid' = .proposal := by
    intro mgr guid guid' h
    show Function.update _ guid _ guid' = _
    rw [Function.update_apply, h, ite_self]
  have hself : ∀ (mgr : LFGMgr) (guid : ObjectGuid),
      (mgr.setState guid .proposal).parties.getState guid = .proposal :=
    fun mgr guid => Function.update_self ..
  have hgroup : ∀ (mgr : LFGMgr) (guid : ObjectGuid),
      (mgr.setState guid .proposal).parties.getGroup = mgr.parties.getGroup := fun _ _ => rfl
  unfold LFGMgr.announceTo
  dsimp only
  by_cases hgguid : mgr.parties.getGroup guid ≠ 0
  · rw [if_pos (show (mgr.setState guid .proposal).parties.getGroup guid ≠ 0 from hgguid)]
    refine ⟨⟨rfl, rfl, rfl, fun guid' h => hset _ _ _ (hset _ _ _ h), fun message h => ?_,
      fun guid' proposalId' proposal' h => ?_⟩, hset _ _ _ (hself _ _), fun _ => hself _ _, ?_⟩
    · exact List.mem_append_left _ (List.mem_append_left _ h)
    · rcases List.mem_append.mp h with h | h
      · rcases List.mem_append.mp h with h | h
        · exact Or.inl h
        · cases List.mem_singleton.mp h
      · exact Or.inr (Sent.updateProposal.inj (List.mem_singleton.mp h)).2.1
    · exact List.mem_append_right _ List.mem_cons_self
  · rw [if_neg (show ¬ (mgr.setState guid .proposal).parties.getGroup guid ≠ 0 from hgguid)]
    refine ⟨⟨rfl, rfl, rfl, fun guid' h => hset _ _ _ h, fun message h => ?_,
      fun guid' proposalId' proposal' h => ?_⟩, hself _ _, fun h => absurd h hgguid, ?_⟩
    · exact List.mem_append_left _ (List.mem_append_left _ h)
    · rcases List.mem_append.mp h with h | h
      · rcases List.mem_append.mp h with h | h
        · exact Or.inl h
        · cases List.mem_singleton.mp h
      · exact Or.inr (Sent.updateProposal.inj (List.mem_singleton.mp h)).2.1
    · exact List.mem_append_right _ List.mem_cons_self

/-- The players of a proposal are told. -/
theorem tells_players (proposalId : ℕ) (proposal : LfgProposal) (guids : List ObjectGuid) : ∀ mgr : LFGMgr,
    Tells (· = proposalId) mgr
        (guids.foldl (fun mgr guid => mgr.announceTo proposalId proposal guid) mgr) ∧
      ∀ guid ∈ guids, Told (guids.foldl (fun mgr guid => mgr.announceTo proposalId proposal guid) mgr)
        proposalId proposal guid := by
  induction guids with
  | nil => exact fun mgr => ⟨.refl _ mgr, fun _ h => absurd h List.not_mem_nil⟩
  | cons guid guids ih =>
    intro mgr
    obtain ⟨hfirst, htold⟩ := tells_announceTo mgr proposalId proposal guid
    obtain ⟨hrest, hothers⟩ := ih (mgr.announceTo proposalId proposal guid)
    refine ⟨hfirst.trans hrest, fun guid' hguid' => ?_⟩
    rcases List.mem_cons.mp hguid' with rfl | hguid'
    · exact htold.of_tells hrest
    · exact hothers guid' hguid'

/-- **The loop over the proposals**, of which none is successful. -/
theorem announce_spec : ∀ (entries : List (ℕ × LfgProposal)) (mgr : LFGMgr),
    (∀ entry ∈ entries, entry.2.state = .initiating) →
      ∃ mgr', LFGMgr.announce entries mgr = some mgr' ∧
        Tells (fun id => ∃ entry ∈ entries, entry.1 = id) mgr mgr' ∧
          ∀ entry ∈ entries, Announced mgr' entry.1 entry.2
  | [], mgr, _ => ⟨mgr, rfl, .refl _ mgr, fun _ h => absurd h List.not_mem_nil⟩
  | (proposalId, proposal) :: rest, mgr, h => by
    have hstate : proposal.state = .initiating := h _ List.mem_cons_self
    obtain ⟨hfirst, htold⟩ :=
      tells_players proposalId proposal proposal.players.keys mgr
    obtain ⟨mgr', hrun, hrest, hothers⟩ :=
      announce_spec rest _ fun entry hentry => h entry (List.mem_cons_of_mem _ hentry)
    refine ⟨mgr', ?_, (hfirst.mono ?_).trans (hrest.mono ?_), fun entry hentry => ?_⟩
    · rw [LFGMgr.announce, if_neg (by rw [hstate]; decide)]
      exact hrun
    · rintro id rfl
      exact ⟨_, List.mem_cons_self, rfl⟩
    · rintro id ⟨entry, hentry, hid⟩
      exact ⟨entry, List.mem_cons_of_mem _ hentry, hid⟩
    · rcases List.mem_cons.mp hentry with rfl | hentry
      · exact fun guid hguid => (htold guid hguid).of_tells hrest
      · exact hothers entry hentry

end Telling

/-! ## 5. Updates -/

/-- **The invariant**: the id is a `uint32`, and the stored proposals are asked about. -/
structure Sound (mgr : LFGMgr) : Prop where
  id : mgr.lfgProposalId < 2 ^ 32
  initiating : ∀ entry ∈ mgr.proposalsStore.entries, entry.2.state = .initiating

theorem removeObsolete_spec (mgr : LFGMgr) (currTime : ℕ) :
    (mgr.removeObsolete currTime).lfgProposalId = mgr.lfgProposalId ∧
      ∀ entry ∈ (mgr.removeObsolete currTime).proposalsStore.entries,
        entry ∈ mgr.proposalsStore.entries := by
  have hfold : ∀ (entries : List (ℕ × LfgProposal)) (mgr : LFGMgr),
      let mgr' := entries.foldl (fun mgr entry => if entry.2.cancelTime < currTime then
        { mgr with proposalsStore := mgr.proposalsStore.erase entry.1 } else mgr) mgr
      mgr'.lfgProposalId = mgr.lfgProposalId ∧
        ∀ entry ∈ mgr'.proposalsStore.entries, entry ∈ mgr.proposalsStore.entries := by
    intro entries
    induction entries with
    | nil => exact fun _ => ⟨rfl, fun _ h => h⟩
    | cons entry entries ih =>
      intro mgr
      obtain ⟨hid, hentries⟩ := ih (if entry.2.cancelTime < currTime then
        { mgr with proposalsStore := mgr.proposalsStore.erase entry.1 } else mgr)
      split at hid
      · next htime =>
        rw [if_pos htime] at hentries
        rw [List.foldl_cons, if_pos htime]
        exact ⟨hid, fun entry' h => (SortedMap.mem_erase.mp (hentries entry' h)).2⟩
      · next htime =>
        rw [if_neg htime] at hentries
        rw [List.foldl_cons, if_neg htime]
        exact ⟨hid, hentries⟩
  exact hfold _ mgr

section Updates

variable {mgr : LFGMgr} (m : Manager) (parties : Parties)

/-- The proposals of an update are new. -/
theorem initiating_created : ∀ p ∈ LFGMgr.created m parties,
    p.state = .initiating ∧ p.players.keys ≠ [] := by
  intro p hp
  obtain ⟨entry, -, hp⟩ := List.mem_flatMap.mp hp
  obtain ⟨q', check, hverdict⟩ := formed_findGroups p hp
  exact initiating_of_verdict hverdict

/-- What there is after the search. -/
structure Searched (mgr : LFGMgr) : Prop where
  id : ((mgr.beforeSearch m parties).findGroups m).lfgProposalId =
    (mgr.lfgProposalId + (LFGMgr.created m parties).length) % 2 ^ 32
  initiating : ∀ entry ∈ ((mgr.beforeSearch m parties).findGroups m).proposalsStore.entries,
    entry.2.state = .initiating
  store : (LFGMgr.created m parties).length ≤ 2 ^ 32 → ∀ k p,
    (LFGMgr.created m parties)[k]? = some p →
      ((mgr.lfgProposalId + k + 1) % 2 ^ 32, p) ∈
        ((mgr.beforeSearch m parties).findGroups m).proposalsStore.entries
  sent : ((mgr.beforeSearch m parties).findGroups m).sent = []

theorem searched (h : Sound mgr) : Searched m parties mgr := by
  obtain ⟨hobsolete, hentries⟩ := removeObsolete_spec mgr m.time
  have hid : (mgr.beforeSearch m parties).lfgProposalId = mgr.lfgProposalId := hobsolete
  have hlt : (mgr.beforeSearch m parties).lfgProposalId < 2 ^ 32 := hid ▸ h.id
  have hsame := findGroups_same m (mgr.beforeSearch m parties)
  obtain ⟨hfold, -, hsent⟩ := foldl_addProposal_id (LFGMgr.created m parties) hlt
  refine ⟨hsame.id.trans (hid ▸ hfold), fun entry hentry => ?_, fun hlength k p hk => ?_,
    hsame.sent.trans hsent⟩
  · rw [hsame.store] at hentry
    rcases mem_foldl_addProposal _ hentry with hentry | hentry
    · exact h.initiating entry (hentries entry hentry)
    · exact (initiating_created m parties entry.2 hentry).1
  · rw [hsame.store, ← hid]
    exact SortedMap.lookup_eq_some.mp (lookup_foldl_addProposal _ hlt hlength hk)

/-- **An update is defined**, and keeps the invariant.  Unless there are more new proposals than
ids, its messages are about proposals with the last id or a later one, and all of these are
announced. -/
theorem update_spec (h : Sound mgr) :
    let n := (LFGMgr.created m parties).length
    let last := (mgr.lfgProposalId + n) % 2 ^ 32
    ∃ mgr', mgr.update m parties = some mgr' ∧ Sound mgr' ∧
      (n ≤ 2 ^ 32 →
        (∀ guid proposalId proposal, .updateProposal guid proposalId proposal ∈ mgr'.sent →
          last ≤ proposalId ∧ mgr.lfgProposalId ≠ last) ∧
        (mgr.lfgProposalId ≠ last → ∀ k p, (LFGMgr.created m parties)[k]? = some p →
          last ≤ (mgr.lfgProposalId + k + 1) % 2 ^ 32 →
            Announced mgr' ((mgr.lfgProposalId + k + 1) % 2 ^ 32) p)) := by
  have hsearched := searched m parties h
  have hid : (mgr.beforeSearch m parties).lfgProposalId = mgr.lfgProposalId :=
    (removeObsolete_spec mgr m.time).1
  have hsound : Sound ((mgr.beforeSearch m parties).findGroups m) :=
    ⟨hsearched.id ▸ Nat.mod_lt _ (by decide), hsearched.initiating⟩
  obtain ⟨hlast, -, hstore, hsent⟩ := hsearched
  unfold LFGMgr.update
  dsimp only
  rw [hid]
  generalize (mgr.beforeSearch m parties).findGroups m = found at *
  rw [hlast]
  by_cases hnew : mgr.lfgProposalId ≠
    (mgr.lfgProposalId + (LFGMgr.created m parties).length) % 2 ^ 32
  · rw [if_pos hnew]
    obtain ⟨mgr', hrun, htells, hannounced⟩ := announce_spec (found.proposalsStore.entries.dropWhile
      fun entry => entry.1 ≠ (mgr.lfgProposalId + (LFGMgr.created m parties).length) % 2 ^ 32) found
      fun entry hentry => hsound.initiating entry ((List.dropWhile_sublist _).subset hentry)
    refine ⟨mgr', hrun, ⟨htells.id ▸ hsound.id, htells.store ▸ hsound.initiating⟩, fun hlength => ?_⟩
    -- the last proposal is where the loop begins
    have hkey : (mgr.lfgProposalId + (LFGMgr.created m parties).length) % 2 ^ 32 ∈
        found.proposalsStore.keys := by
      have hid := h.id
      have hpos : (LFGMgr.created m parties).length - 1 < (LFGMgr.created m parties).length := by
        omega
      have hmem := hstore hlength _ _ (List.getElem?_eq_getElem hpos)
      rw [Nat.add_assoc, Nat.sub_add_cancel (Nat.one_le_of_lt hpos)] at hmem
      exact SortedMap.mem_keys.mpr ⟨_, hmem⟩
    refine ⟨fun guid proposalId proposal hmessage => ⟨?_, hnew⟩, fun _ k p hk hle => ?_⟩
    · rcases htells.about guid proposalId proposal hmessage with hmessage | ⟨entry, hentry, rfl⟩
      · rw [hsent] at hmessage
        cases hmessage
      · exact ((SortedMap.mem_dropWhile_ne hkey).mp hentry).2
    · exact hannounced _ ((SortedMap.mem_dropWhile_ne hkey).mpr ⟨hstore hlength k p hk, hle⟩)
  · rw [if_neg hnew]
    refine ⟨found, rfl, hsound, fun _ => ⟨fun guid proposalId proposal hmessage => ?_,
      fun h => absurd h hnew⟩⟩
    rw [hsent] at hmessage
    cases hmessage

theorem sound_call (h : Sound mgr) (c : Call) : Sound (call mgr c) := by
  cases c with
  | update m parties =>
    obtain ⟨mgr', hupdate, hsound, -⟩ := update_spec m parties h
    show Sound ((mgr.update m parties).getD mgr)
    rw [hupdate]
    exact hsound
  | updateProposal proposalId guid accept =>
    show Sound (mgr.updateProposal proposalId guid accept)
    unfold LFGMgr.updateProposal
    cases hfound : mgr.proposalsStore.lookup proposalId with
    | none => exact h
    | some proposal =>
      have hstate := h.initiating _ (SortedMap.lookup_eq_some.mp hfound)
      dsimp only
      cases proposal.players.lookup guid with
      | none => exact h
      | some player =>
        dsimp only
        generalize proposal.players.insert guid _ = players
        split
        · exact ⟨h.id, fun entry hentry => h.initiating entry (SortedMap.mem_erase.mp hentry).2⟩
        · refine ⟨h.id, fun entry hentry => ?_⟩
          rcases SortedMap.mem_insert.mp hentry with ⟨-, heq⟩ | ⟨-, hentry⟩
          · rw [heq]
            exact hstate
          · exact h.initiating entry hentry
  | removeProposal proposalId =>
    exact ⟨h.id, fun entry hentry => h.initiating entry (SortedMap.mem_erase.mp hentry).2⟩
  | others parties => exact ⟨h.id, h.initiating⟩

end Updates

/-- All the proposals of an update are announced; those that begin successful are completed. -/
def AllAnnounced (mgr : LFGMgr) (m : Manager) (parties : Parties) : Prop :=
  ∃ mgr', mgr.update m parties = some mgr' ∧
    ∀ k p, (LFGMgr.created m parties)[k]? = some p →
      Announced mgr' ((mgr.lfgProposalId + k + 1) % 2 ^ 32) p ∧
        (p.state = .success → mgr'.proposalsStore.lookup
          ((mgr.lfgProposalId + k + 1) % 2 ^ 32) = none)

/-- There is one proposal at most, or the last one has the id 0. -/
def LastOnly (mgr : LFGMgr) (n : ℕ) : Prop :=
  n ≤ 1 ∨ (mgr.lfgProposalId + n = 2 ^ 32 ∧ 0 < mgr.lfgProposalId)

/-- **Which updates announce all their proposals**: those with one proposal at most, or with ids
that start again at the last of them. -/
theorem allAnnounced_iff (calls : List Call) (m : Manager) (parties : Parties) :
    let mgr := exec call .init calls
    let n := (LFGMgr.created m parties).length
    (LastOnly mgr n → AllAnnounced mgr m parties) ∧
      (n ≤ 2 ^ 32 → AllAnnounced mgr m parties → LastOnly mgr n) := by
  have hinit : Sound .init := ⟨by decide, fun entry h => absurd h List.not_mem_nil⟩
  have hsound : Sound (exec call .init calls) :=
    exec_invariant_all (I := Sound) (fun _ c h => sound_call h c) _ calls hinit
  generalize exec call .init calls = mgr at *
  obtain ⟨mgr', hupdate, -, hspec⟩ := update_spec m parties hsound
  have hid := hsound.id
  constructor
  · intro hlast
    refine ⟨mgr', hupdate, fun k p hk => ⟨?_, fun hstate => ?_⟩⟩
    · obtain ⟨hlt, -⟩ := List.getElem?_eq_some_iff.mp hk
      rcases hlast with hone | ⟨hzero, hpos⟩
      · exact (hspec (by omega)).2 (by omega) k p hk (by omega)
      · exact (hspec (by omega)).2 (by omega) k p hk (by omega)
    · rw [(initiating_created m parties p (List.mem_of_getElem? hk)).1] at hstate
      cases hstate
  · rintro hlength ⟨mgr'', hupdate', hall⟩
    obtain rfl := Option.some_inj.mp (hupdate.symm.trans hupdate')
    -- a proposal has a player, whose message is about the last id or a later one
    have hle : ∀ k < (LFGMgr.created m parties).length,
        (mgr.lfgProposalId + (LFGMgr.created m parties).length) % 2 ^ 32 ≤
            (mgr.lfgProposalId + k + 1) % 2 ^ 32 ∧
          mgr.lfgProposalId ≠
            (mgr.lfgProposalId + (LFGMgr.created m parties).length) % 2 ^ 32 := by
      intro k hk
      have hget := List.getElem?_eq_getElem hk
      obtain ⟨guid, hguid⟩ := List.exists_mem_of_ne_nil _
        (initiating_created m parties _ (List.mem_of_getElem? hget)).2
      exact (hspec hlength).1 _ _ _ ((hall k _ hget).1 guid hguid).sent
    unfold LastOnly
    by_contra hnot
    have hfirst := hle 0 (by omega)
    have hzero := hle (2 ^ 32 - mgr.lfgProposalId - 1)
    omega

/-- A queue with another group of five, under 19. -/
def otherQueue : LFGQueue where
  queueDataStore guid :=
    if guid = 19 then
      some ⟨[1], ((((SortedMap.empty.insert 11 0x02).insert 12 0x0C).insert 13 0x0C).insert 14
        0x08).insert 15 0x08⟩
    else none
  compatibleMapStore _ := .pending
  currentQueueStore := []
  newToQueueStore := [19]

/-- Five players wait in the queue of each faction. -/
def twoQueues : Parties where
  queuesStore := (SortedMap.empty.insert 0 fiveQueue).insert 1 otherQueue
  getState _ := .queued
  getGroup _ := 0

/-- One new guid that is a match. -/
theorem proposals_findGroups_one {m : Manager} {q : LFGQueue} {guid : ObjectGuid}
    (hnew : q.newToQueueStore = [guid])
    (hmatch : (Search.compatibilityOf m ⟨q.removeFromNewQueue guid, []⟩ [guid]).1 = .isMatch) :
    (q.findGroups m).1.proposals =
      (Search.compatibilityOf m ⟨q.removeFromNewQueue guid, []⟩ [guid]).2.proposals := by
  have hcall : q.findGroups m = Search.findTurn m guid (⟨q, []⟩, 0) := by
    unfold LFGQueue.findGroups
    rw [hnew, List.length_singleton, Search.findGroupsLoop]
    rw [hnew]
    rfl
  rw [hcall]
  unfold Search.findTurn
  dsimp only
  have hdone : (Search.compatibilityOf m ⟨q.removeFromNewQueue guid, []⟩ [guid]).1 ≠
      .withLessPlayers := by
    rw [hmatch]
    decide
  rw [Search.findNewGroups, if_pos hdone]
  rw [if_pos hmatch]

/-- Both queues have a match in one update: the players of the first are not told. -/
theorem not_allAnnounced_twoQueues : ¬ AllAnnounced .init fairManager twoQueues := by
  rintro ⟨mgr', hupdate, hall⟩
  have hsound : Sound .init := ⟨by decide, fun entry h => absurd h List.not_mem_nil⟩
  have htwo : (LFGMgr.created fairManager twoQueues).length = 2 := by
    show ((fiveQueue.findGroups fairManager).1.proposals ++
      ((otherQueue.findGroups fairManager).1.proposals ++ [])).length = 2
    rw [@proposals_findGroups_one _ fiveQueue 9 rfl (by decide),
      @proposals_findGroups_one _ otherQueue 19 rfl (by decide)]
    decide
  obtain ⟨mgr'', hupdate', -, hspec⟩ := update_spec fairManager twoQueues hsound
  obtain rfl := Option.some_inj.mp (hupdate.symm.trans hupdate')
  have hget := List.getElem?_eq_getElem (htwo ▸ Nat.two_pos)
  obtain ⟨guid, hguid⟩ := List.exists_mem_of_ne_nil _
    (initiating_created fairManager twoQueues _ (List.mem_of_getElem? hget)).2
  have hle := ((hspec (by rw [htwo]; decide)).1 _ _ _ ((hall 0 _ hget).1 guid hguid).sent).1
  rw [htwo] at hle
  exact absurd hle (by decide)

end HungerGames.Lfg
