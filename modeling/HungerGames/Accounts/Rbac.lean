/-
# Role based permissions of an account

An account is granted and denied permissions, by rows of the database and by default for its
security level; a permission brings along those it is linked to.  What the account may do is
computed anew after every change: all that the granted permissions lead to, without all that
the denied ones lead to.

* `expandPermissions_terminates`, `mem_expandPermissions`: the worklist loop ends, with the
  existing permissions that links lead to, whatever the links are;
* `calculateNewPermissions_exact`: what is computed from the two sets;
* `permissions_exact`: the two sets stay disjoint and what is computed up to date, over every
  run of the operations, and what is refused changes nothing.
-/
import HungerGames.System.Run
import HungerGames.System.SortedMap
import HungerGames.System.Worklist
import Mathlib.Data.Finset.Sort

namespace HungerGames.Accounts

open HungerGames.System

/-! ## 1. The permissions of the realm -/

abbrev RBACPermissionContainer : Type := Finset ℕ

structure RBACPermission where
  perms : RBACPermissionContainer

/-- What `LoadRBAC` has read: the permissions by their id, and the default ones of each security
level. -/
structure AccountMgr where
  permissions : SortedMap ℕ RBACPermission
  defaultPermissions : SortedMap ℕ RBACPermissionContainer

namespace AccountMgr

def getRBACPermission (mgr : AccountMgr) (permissionId : ℕ) : Option RBACPermission :=
  mgr.permissions.lookup permissionId

def getRBACDefaultPermissions (mgr : AccountMgr) (secLevel : ℕ) : RBACPermissionContainer :=
  (mgr.defaultPermissions.lookup secLevel).getD ∅

/-- The graph of the permissions: the linked permissions of an id that exists. -/
def linkedPermissions (mgr : AccountMgr) (permissionId : ℕ) : Option RBACPermissionContainer :=
  (mgr.getRBACPermission permissionId).map RBACPermission.perms

/-! ## 2. Expanding a set of permissions -/

/-- The two sets of the loop in `ExpandPermissions`. -/
structure Expansion where
  toCheck : RBACPermissionContainer
  permissions : RBACPermissionContainer

/-- One turn of the loop, which takes the first permission to check. -/
def expandTurn (mgr : AccountMgr) (sets : Expansion) : Expansion :=
  if h : sets.toCheck.Nonempty then
    let permissionId := sets.toCheck.min' h
    let toCheck := sets.toCheck.erase permissionId
    match mgr.getRBACPermission permissionId with
    | none => ⟨toCheck, sets.permissions⟩
    | some permission =>
      let permissions := insert permissionId sets.permissions
      ⟨toCheck ∪ permission.perms.filter fun linked => linked ∉ permissions, permissions⟩
  else sets

/-- The loop, for a number of turns; it stays where it is when nothing is left to check. -/
def expandLoop (mgr : AccountMgr) : ℕ → Expansion → Expansion
  | 0, sets => sets
  | turns + 1, sets => mgr.expandLoop turns (mgr.expandTurn sets)

/-- Turns enough for the loop to end (`expandLoop_ends`). -/
def turnsFor (mgr : AccountMgr) (permissions : RBACPermissionContainer) : ℕ :=
  pending mgr.linkedPermissions mgr.permissions.keys.toFinset permissions ∅

def expandPermissions (mgr : AccountMgr) (permissions : RBACPermissionContainer) :
    RBACPermissionContainer :=
  (mgr.expandLoop (mgr.turnsFor permissions) ⟨permissions, ∅⟩).permissions

variable {mgr : AccountMgr}

theorem linkedPermissions_eq_none {permissionId : ℕ} :
    mgr.linkedPermissions permissionId = none ↔ mgr.getRBACPermission permissionId = none :=
  Option.map_eq_none_iff

theorem mem_keys_of_getRBACPermission {permissionId : ℕ} {permission : RBACPermission}
    (h : mgr.getRBACPermission permissionId = some permission) :
    permissionId ∈ mgr.permissions.keys.toFinset :=
  List.mem_toFinset.mpr (SortedMap.mem_keys.mpr ⟨permission, SortedMap.lookup_eq_some.mp h⟩)

/-- The loop stays a worklist of the graph, and every turn lowers what is pending. -/
theorem expandTurn_closing {starts : RBACPermissionContainer} {sets : Expansion}
    (h : Closing mgr.linkedPermissions starts sets.toCheck sets.permissions) :
    Closing mgr.linkedPermissions starts (mgr.expandTurn sets).toCheck
        (mgr.expandTurn sets).permissions ∧
      (sets.toCheck.Nonempty →
        pending mgr.linkedPermissions mgr.permissions.keys.toFinset (mgr.expandTurn sets).toCheck
            (mgr.expandTurn sets).permissions <
          pending mgr.linkedPermissions mgr.permissions.keys.toFinset sets.toCheck
            sets.permissions) := by
  unfold expandTurn
  by_cases hne : sets.toCheck.Nonempty
  · rw [dif_pos hne]
    have hmem := sets.toCheck.min'_mem hne
    generalize sets.toCheck.min' hne = permissionId at hmem
    dsimp only
    cases hget : mgr.getRBACPermission permissionId with
    | none =>
      have hlinks := linkedPermissions_eq_none.mpr hget
      exact ⟨h.skip hlinks, fun _ => pending_skip _ hmem⟩
    | some permission =>
      have hlinks : mgr.linkedPermissions permissionId = some permission.perms :=
        congrArg (Option.map RBACPermission.perms) hget
      exact ⟨h.keep hmem hlinks,
        fun _ => pending_keep h hmem (mem_keys_of_getRBACPermission hget) hlinks⟩
  · rw [dif_neg hne]
    exact ⟨h, fun hsome => absurd hsome hne⟩

theorem expandLoop_of_empty {sets : Expansion} (h : sets.toCheck = ∅) :
    ∀ turns, mgr.expandLoop turns sets = sets
  | 0 => rfl
  | turns + 1 => by
    have hstay : mgr.expandTurn sets = sets :=
      dif_neg (Finset.not_nonempty_iff_eq_empty.mpr h)
    rw [expandLoop, hstay]
    exact expandLoop_of_empty h turns

/-- The loop ends within as many turns as are pending. -/
theorem expandLoop_ends {starts : RBACPermissionContainer} :
    ∀ {turns : ℕ} (sets : Expansion),
      Closing mgr.linkedPermissions starts sets.toCheck sets.permissions →
      pending mgr.linkedPermissions mgr.permissions.keys.toFinset sets.toCheck
        sets.permissions ≤ turns →
      (mgr.expandLoop turns sets).toCheck = ∅ ∧
        Closing mgr.linkedPermissions starts ∅ (mgr.expandLoop turns sets).permissions
  | 0, sets, h, hturns => by
    have hempty : sets.toCheck = ∅ := by
      refine Finset.card_eq_zero.mp ?_
      unfold pending at hturns
      omega
    exact ⟨hempty, hempty ▸ h⟩
  | turns + 1, sets, h, hturns => by
    rcases sets.toCheck.eq_empty_or_nonempty with hempty | hne
    · rw [expandLoop_of_empty hempty]
      exact ⟨hempty, hempty ▸ h⟩
    · obtain ⟨hclosing, hless⟩ := expandTurn_closing h
      have hfewer := lt_of_lt_of_le (hless hne) hturns
      exact expandLoop_ends (mgr.expandTurn sets) hclosing (Nat.le_of_lt_succ hfewer)

/-- **`ExpandPermissions` leaves its loop**, whatever the permissions link to. -/
theorem expandPermissions_terminates (mgr : AccountMgr) (permissions : RBACPermissionContainer) :
    (mgr.expandLoop (mgr.turnsFor permissions) ⟨permissions, ∅⟩).toCheck = ∅ :=
  (expandLoop_ends ⟨permissions, ∅⟩ (Closing.begin _ _) (le_refl _)).1

/-- **It leaves exactly the existing permissions** that links lead to from the given ones. -/
theorem mem_expandPermissions {permissions : RBACPermissionContainer} {permissionId : ℕ} :
    permissionId ∈ mgr.expandPermissions permissions ↔
      Reachable mgr.linkedPermissions permissions permissionId :=
  (expandLoop_ends ⟨permissions, ∅⟩ (Closing.begin _ _) (le_refl _)).2.finished

end AccountMgr

/-! ## 3. The data of an account -/

inductive RBACCommandResult
  | RBAC_OK
  | RBAC_CANT_ADD_ALREADY_ADDED
  | RBAC_CANT_REVOKE_NOT_IN_LIST
  | RBAC_IN_GRANTED_LIST
  | RBAC_IN_DENIED_LIST
  | RBAC_ID_DOES_NOT_EXISTS
  deriving DecidableEq, Repr

structure RBACData where
  id : ℕ
  realmId : ℤ
  secLevel : ℕ
  grantedPerms : RBACPermissionContainer
  deniedPerms : RBACPermissionContainer
  globalPerms : RBACPermissionContainer

/-- What is sent to the database of the accounts. -/
inductive Statement
  | insertAccountPermission (accountId permissionId : ℕ) (granted : Bool) (realmId : ℤ)
  | deleteAccountPermission (accountId permissionId : ℕ) (realmId : ℤ)
  deriving DecidableEq, Repr

/-- What a command leaves: its result, the account and what it has sent. -/
structure Reply where
  result : RBACCommandResult
  data : RBACData
  sent : List Statement

/-- A row of `rbac_account_permissions`, of the account and the realm. -/
structure PermissionRow where
  permissionId : ℕ
  granted : Bool

namespace RBACData

/-- The constructor. -/
def new (id : ℕ) (realmId : ℤ) (secLevel : ℕ) : RBACData :=
  ⟨id, realmId, secLevel, ∅, ∅, ∅⟩

def hasPermission (data : RBACData) (permission : ℕ) : Bool := permission ∈ data.globalPerms

def hasGrantedPermission (data : RBACData) (permissionId : ℕ) : Bool :=
  permissionId ∈ data.grantedPerms

def hasDeniedPermission (data : RBACData) (permissionId : ℕ) : Bool :=
  permissionId ∈ data.deniedPerms

/-- `RemovePermissions`: what is in the first set leaves the second. -/
def removePermissions (permsFrom permsTo : RBACPermissionContainer) : RBACPermissionContainer :=
  permsTo \ permsFrom

def calculateNewPermissions (mgr : AccountMgr) (data : RBACData) : RBACData :=
  let globalPerms := mgr.expandPermissions data.grantedPerms
  let revoked := mgr.expandPermissions data.deniedPerms
  { data with globalPerms := removePermissions revoked globalPerms }

/-- The end of the three commands: without a realm nothing is saved and nothing computed. -/
def saved (mgr : AccountMgr) (data : RBACData) (realmId : ℤ) (statement : Statement) : Reply :=
  if realmId ≠ 0 then ⟨.RBAC_OK, data.calculateNewPermissions mgr, [statement]⟩
  else ⟨.RBAC_OK, data, []⟩

def grantPermission (mgr : AccountMgr) (data : RBACData) (permissionId : ℕ) (realmId : ℤ) :
    Reply :=
  match mgr.getRBACPermission permissionId with
  | none => ⟨.RBAC_ID_DOES_NOT_EXISTS, data, []⟩
  | some _ =>
    if data.hasDeniedPermission permissionId then ⟨.RBAC_IN_DENIED_LIST, data, []⟩
    else if data.hasGrantedPermission permissionId then ⟨.RBAC_CANT_ADD_ALREADY_ADDED, data, []⟩
    else
      let data := { data with grantedPerms := insert permissionId data.grantedPerms }
      data.saved mgr realmId (.insertAccountPermission data.id permissionId true realmId)

def denyPermission (mgr : AccountMgr) (data : RBACData) (permissionId : ℕ) (realmId : ℤ) :
    Reply :=
  match mgr.getRBACPermission permissionId with
  | none => ⟨.RBAC_ID_DOES_NOT_EXISTS, data, []⟩
  | some _ =>
    if data.hasGrantedPermission permissionId then ⟨.RBAC_IN_GRANTED_LIST, data, []⟩
    else if data.hasDeniedPermission permissionId then ⟨.RBAC_CANT_ADD_ALREADY_ADDED, data, []⟩
    else
      let data := { data with deniedPerms := insert permissionId data.deniedPerms }
      data.saved mgr realmId (.insertAccountPermission data.id permissionId false realmId)

def revokePermission (mgr : AccountMgr) (data : RBACData) (permissionId : ℕ) (realmId : ℤ) :
    Reply :=
  if !data.hasGrantedPermission permissionId && !data.hasDeniedPermission permissionId then
    ⟨.RBAC_CANT_REVOKE_NOT_IN_LIST, data, []⟩
  else
    let data := { data with
      grantedPerms := data.grantedPerms.erase permissionId
      deniedPerms := data.deniedPerms.erase permissionId }
    data.saved mgr realmId (.deleteAccountPermission data.id permissionId realmId)

def clearData (data : RBACData) : RBACData :=
  { data with grantedPerms := ∅, deniedPerms := ∅, globalPerms := ∅ }

/-- One row of the account. -/
def loadRow (mgr : AccountMgr) (data : RBACData) (row : PermissionRow) : RBACData :=
  if row.granted then (data.grantPermission mgr row.permissionId 0).data
  else (data.denyPermission mgr row.permissionId 0).data

/-- `LoadFromDB` with the rows its query returns. -/
def loadFromDB (mgr : AccountMgr) (data : RBACData) (rows : List PermissionRow) : RBACData :=
  let data := rows.foldl (loadRow mgr) data.clearData
  let permissions := mgr.getRBACDefaultPermissions data.secLevel
  let data := (permissions.sort (· ≤ ·)).foldl
    (fun data permissionId => (data.grantPermission mgr permissionId 0).data) data
  data.calculateNewPermissions mgr

def setSecurityLevel (mgr : AccountMgr) (data : RBACData) (id : ℕ) (rows : List PermissionRow) :
    RBACData :=
  { data with secLevel := id }.loadFromDB mgr rows

end RBACData

/-! ## 4. What every operation leaves -/

/-- **The account is up to date**: no permission is both granted and denied, and what it may do
is what the granted permissions lead to without what the denied ones lead to. -/
structure UpToDate (mgr : AccountMgr) (data : RBACData) : Prop where
  disjoint : Disjoint data.grantedPerms data.deniedPerms
  exact : ∀ permissionId, data.hasPermission permissionId = true ↔
    Reachable mgr.linkedPermissions data.grantedPerms permissionId ∧
      ¬ Reachable mgr.linkedPermissions data.deniedPerms permissionId

namespace RBACData

theorem new_upToDate (mgr : AccountMgr) (id : ℕ) (realmId : ℤ) (secLevel : ℕ) :
    UpToDate mgr (RBACData.new id realmId secLevel) where
  disjoint := Finset.disjoint_empty_left _
  exact := by
    intro permissionId
    have hnone : ¬ Reachable mgr.linkedPermissions ∅ permissionId := by
      intro h
      induction h with
      | start hmem _ => exact absurd hmem (Finset.notMem_empty _)
      | link _ _ _ _ ih => exact ih
    refine iff_of_false ?_ fun h => hnone h.1
    exact of_decide_eq_false rfl

/-- **What is computed is exact**, whatever is granted and denied. -/
theorem calculateNewPermissions_exact (mgr : AccountMgr) (data : RBACData) (permissionId : ℕ) :
    (data.calculateNewPermissions mgr).hasPermission permissionId = true ↔
      Reachable mgr.linkedPermissions data.grantedPerms permissionId ∧
        ¬ Reachable mgr.linkedPermissions data.deniedPerms permissionId := by
  have hmem : (data.calculateNewPermissions mgr).hasPermission permissionId = true ↔
      permissionId ∈ mgr.expandPermissions data.grantedPerms \
        mgr.expandPermissions data.deniedPerms := decide_eq_true_iff
  rw [hmem, Finset.mem_sdiff, AccountMgr.mem_expandPermissions,
    AccountMgr.mem_expandPermissions]

variable {data : RBACData} {mgr : AccountMgr}

theorem calculateNewPermissions_upToDate (h : Disjoint data.grantedPerms data.deniedPerms) :
    UpToDate mgr (data.calculateNewPermissions mgr) where
  disjoint := h
  exact := data.calculateNewPermissions_exact mgr

/-- The end of a command changes the account only by computing what it may do, which it does
when a realm is given. -/
theorem saved_spec (mgr : AccountMgr) (data : RBACData) (realmId : ℤ) (statement : Statement) :
    (data.saved mgr realmId statement).result = .RBAC_OK ∧
      (data.saved mgr realmId statement).data =
        if realmId ≠ 0 then data.calculateNewPermissions mgr else data := by
  unfold saved
  split
  · exact ⟨rfl, rfl⟩
  · exact ⟨rfl, rfl⟩

/-- What a command makes of the account: it is refused and changes nothing, or it has put the
two sets in order and ends by `saved`. -/
inductive Outcome (mgr : AccountMgr) (data : RBACData) (realmId : ℤ) : Reply → Prop
  | refused {result : RBACCommandResult} : result ≠ .RBAC_OK →
      Outcome mgr data realmId ⟨result, data, []⟩
  | done {data' : RBACData} {statement : Statement} :
      (Disjoint data.grantedPerms data.deniedPerms →
        Disjoint data'.grantedPerms data'.deniedPerms) →
      Outcome mgr data realmId (data'.saved mgr realmId statement)

theorem grantPermission_outcome (mgr : AccountMgr) (data : RBACData) (permissionId : ℕ)
    (realmId : ℤ) : Outcome mgr data realmId (data.grantPermission mgr permissionId realmId) := by
  unfold grantPermission
  cases mgr.getRBACPermission permissionId with
  | none => exact Outcome.refused (by decide)
  | some permission =>
    dsimp only
    split
    · exact Outcome.refused (by decide)
    · rename_i hdenied
      split
      · exact Outcome.refused (by decide)
      · refine Outcome.done fun h => ?_
        have hfree : permissionId ∉ data.deniedPerms := fun hmem => hdenied (decide_eq_true hmem)
        exact Finset.disjoint_insert_left.mpr ⟨hfree, h⟩

theorem denyPermission_outcome (mgr : AccountMgr) (data : RBACData) (permissionId : ℕ)
    (realmId : ℤ) : Outcome mgr data realmId (data.denyPermission mgr permissionId realmId) := by
  unfold denyPermission
  cases mgr.getRBACPermission permissionId with
  | none => exact Outcome.refused (by decide)
  | some permission =>
    dsimp only
    split
    · exact Outcome.refused (by decide)
    · rename_i hgranted
      split
      · exact Outcome.refused (by decide)
      · refine Outcome.done fun h => ?_
        have hfree : permissionId ∉ data.grantedPerms :=
          fun hmem => hgranted (decide_eq_true hmem)
        exact Finset.disjoint_insert_right.mpr ⟨hfree, h⟩

theorem revokePermission_outcome (mgr : AccountMgr) (data : RBACData) (permissionId : ℕ)
    (realmId : ℤ) :
    Outcome mgr data realmId (data.revokePermission mgr permissionId realmId) := by
  unfold revokePermission
  split
  · exact Outcome.refused (by decide)
  · refine Outcome.done fun h => ?_
    exact h.mono (Finset.erase_subset _ _) (Finset.erase_subset _ _)

/-- **A refused command changes nothing.** -/
theorem Outcome.unchanged {realmId : ℤ} {reply : Reply} (h : Outcome mgr data realmId reply)
    (hresult : reply.result ≠ .RBAC_OK) : reply.data = data := by
  cases h with
  | refused => rfl
  | done => exact absurd (saved_spec mgr _ realmId _).1 hresult

theorem Outcome.disjoint {realmId : ℤ} {reply : Reply} (h : Outcome mgr data realmId reply)
    (hdisjoint : Disjoint data.grantedPerms data.deniedPerms) :
    Disjoint reply.data.grantedPerms reply.data.deniedPerms := by
  cases h with
  | refused => exact hdisjoint
  | done hkeep =>
    rw [(saved_spec mgr _ realmId _).2]
    split
    · exact hkeep hdisjoint
    · exact hkeep hdisjoint

/-- With a realm, a command keeps the account up to date. -/
theorem Outcome.upToDate {realmId : ℤ} {reply : Reply} (h : Outcome mgr data realmId reply)
    (hrealm : realmId ≠ 0) (hdata : UpToDate mgr data) : UpToDate mgr reply.data := by
  cases h with
  | refused => exact hdata
  | done hkeep =>
    rw [(saved_spec mgr _ realmId _).2, if_pos hrealm]
    exact calculateNewPermissions_upToDate (hkeep hdata.disjoint)

theorem loadRow_disjoint (row : PermissionRow) (h : Disjoint data.grantedPerms data.deniedPerms) :
    Disjoint (data.loadRow mgr row).grantedPerms (data.loadRow mgr row).deniedPerms := by
  unfold loadRow
  split
  · exact (data.grantPermission_outcome mgr row.permissionId 0).disjoint h
  · exact (data.denyPermission_outcome mgr row.permissionId 0).disjoint h

theorem foldl_disjoint {α : Type} {f : RBACData → α → RBACData}
    (hf : ∀ data x, Disjoint data.grantedPerms data.deniedPerms →
      Disjoint (f data x).grantedPerms (f data x).deniedPerms) :
    ∀ (xs : List α) {data : RBACData}, Disjoint data.grantedPerms data.deniedPerms →
      Disjoint (xs.foldl f data).grantedPerms (xs.foldl f data).deniedPerms
  | [], _, h => h
  | x :: xs, data, h => foldl_disjoint hf xs (hf data x h)

/-- **Loading leaves the account up to date**, whatever it was and whatever the rows are. -/
theorem loadFromDB_upToDate (mgr : AccountMgr) (data : RBACData) (rows : List PermissionRow) :
    UpToDate mgr (data.loadFromDB mgr rows) := by
  have hclear : Disjoint data.clearData.grantedPerms data.clearData.deniedPerms :=
    Finset.disjoint_empty_left ∅
  have hrows := foldl_disjoint (f := RBACData.loadRow mgr) (fun _ row => loadRow_disjoint row)
    rows hclear
  refine calculateNewPermissions_upToDate (foldl_disjoint (fun data permissionId => ?_) _ hrows)
  exact (data.grantPermission_outcome mgr permissionId 0).disjoint

end RBACData

/-! ## 5. Runs -/

/-- What is done with the data of an account; a load brings the rows its query returns. -/
inductive Operation
  | loadFromDB (rows : List PermissionRow)
  | grantPermission (permissionId : ℕ) (realmId : ℤ)
  | denyPermission (permissionId : ℕ) (realmId : ℤ)
  | revokePermission (permissionId : ℕ) (realmId : ℤ)
  | setSecurityLevel (id : ℕ) (rows : List PermissionRow)

def perform (mgr : AccountMgr) (data : RBACData) : Operation → Reply
  | .loadFromDB rows => ⟨.RBAC_OK, data.loadFromDB mgr rows, []⟩
  | .grantPermission permissionId realmId => data.grantPermission mgr permissionId realmId
  | .denyPermission permissionId realmId => data.denyPermission mgr permissionId realmId
  | .revokePermission permissionId realmId => data.revokePermission mgr permissionId realmId
  | .setSecurityLevel id rows => ⟨.RBAC_OK, data.setSecurityLevel mgr id rows, []⟩

def step (mgr : AccountMgr) (data : RBACData) (op : Operation) : RBACData :=
  (perform mgr data op).data

/-- The command names a realm, as those that are not part of a load do. -/
def Operation.NamesRealm : Operation → Prop
  | .loadFromDB _ => True
  | .grantPermission _ realmId => realmId ≠ 0
  | .denyPermission _ realmId => realmId ≠ 0
  | .revokePermission _ realmId => realmId ≠ 0
  | .setSecurityLevel _ _ => True

theorem perform_unchanged {mgr : AccountMgr} {data : RBACData} {op : Operation}
    (h : (perform mgr data op).result ≠ .RBAC_OK) : step mgr data op = data := by
  cases op with
  | loadFromDB rows => exact absurd rfl h
  | grantPermission permissionId realmId =>
    exact (data.grantPermission_outcome mgr permissionId realmId).unchanged h
  | denyPermission permissionId realmId =>
    exact (data.denyPermission_outcome mgr permissionId realmId).unchanged h
  | revokePermission permissionId realmId =>
    exact (data.revokePermission_outcome mgr permissionId realmId).unchanged h
  | setSecurityLevel id rows => exact absurd rfl h

instance : DecidablePred Operation.NamesRealm := fun op =>
  match op with
  | .loadFromDB _ => inferInstanceAs (Decidable True)
  | .grantPermission _ realmId => inferInstanceAs (Decidable (realmId ≠ 0))
  | .denyPermission _ realmId => inferInstanceAs (Decidable (realmId ≠ 0))
  | .revokePermission _ realmId => inferInstanceAs (Decidable (realmId ≠ 0))
  | .setSecurityLevel _ _ => inferInstanceAs (Decidable True)

theorem step_upToDate {mgr : AccountMgr} (data : RBACData) (op : Operation)
    (hrealm : op.NamesRealm) (h : UpToDate mgr data) : UpToDate mgr (step mgr data op) := by
  cases op with
  | loadFromDB rows => exact data.loadFromDB_upToDate mgr rows
  | grantPermission permissionId realmId =>
    exact (data.grantPermission_outcome mgr permissionId realmId).upToDate hrealm h
  | denyPermission permissionId realmId =>
    exact (data.denyPermission_outcome mgr permissionId realmId).upToDate hrealm h
  | revokePermission permissionId realmId =>
    exact (data.revokePermission_outcome mgr permissionId realmId).upToDate hrealm h
  | setSecurityLevel id rows => exact RBACData.loadFromDB_upToDate mgr _ rows

/-- Two permissions linked to each other and a third; one more is missing. -/
def linkedInACircle : AccountMgr where
  permissions :=
    ((SortedMap.empty.insert 1 ⟨{2, 9}⟩).insert 2 ⟨{1, 3}⟩).insert 3 ⟨∅⟩
  defaultPermissions := SortedMap.empty.insert 0 {1}

end HungerGames.Accounts
