/-
# The search for roles, in place (`LFGMgr::CheckGroupRoles`)

`CheckGroupRoles` works on the map it is given: it takes a role from a player, calls itself on the
same map, and puts the role back when the call fails.  The search of `Roles` passes the roles on
instead.  Both come to the same: when the call returns `false` the map is as it was, but for the
flag of the leader (`checkGroupRolesIn_eq`).

The search misses nothing.  A player who keeps several roles to the end is not counted, and any
role an assignment leaves out is one the search tries to take away.  The number of players is
compared as a byte, so the answer is right for fewer than 256 of them
(`checkGroupRolesIn_spec`).  More players never have roles, but 256 of them who could all be tank
or healer are said to (`crowd_accepted`).
-/
import HungerGames.Lfg.Queue

namespace HungerGames.Lfg

/-! ## 1. `CheckGroupRoles` -/

/-- The roles while the loop is at a player, and the counters. -/
abbrev Searching := List Role × (Role → ℕ)

/-- What a call returns and what it leaves in the map.  `none` is a call that was cut short. -/
abbrev Checked := Option (Bool × List Role)

/-- One role of the player at `it`.  An `.error` is a return. -/
def tryRole (check : List Role → Checked) (it : ℕ) (role : Role) (s : Searching) :
    Except Checked Searching :=
  let (groles, counts) := s
  if groles.getD it 0 &&& role = 0 then .ok s
  else if groles.getD it 0 ≠ role then
    match check (groles.modify it (· - role)) with
    | none => .error none
    | some (true, groles) => .error (some (true, groles))
    | some (false, groles) => .ok (groles.modify it (· + role), counts)
  else if counts role = needed role then .error (some (false, groles))
  else .ok (groles, Function.update counts role (counts role + 1))

/-- The body of the loop over the players. -/
def tryRoles (check : List Role → Checked) (it : ℕ) (s : Searching) : Except Checked Searching :=
  if s.1.getD it 0 = .none then .error (some (false, s.1))
  else do
    let s ← tryRole check it .damage s
    let s ← tryRole check it .healer s
    tryRole check it .tank s

/-- The loop, over the players that are left. -/
def search (check : List Role → Checked) : List ℕ → Searching → Checked
  | [], (groles, counts) =>
    some (counts .tank + counts .healer + counts .damage = groles.length % 2 ^ 8, groles)
  | it :: its, s =>
    match tryRoles check it s with
    | .error result => result
    | .ok s => search check its s

/-- `CheckGroupRoles(groles, false)`, in at most `n` calls one inside another. -/
def checkIn : ℕ → List Role → Checked
  | 0, _ => none
  | n + 1, groles =>
    if groles = [] then some (false, groles)
    else search (checkIn n) (List.range groles.length) (groles, fun _ => 0)

/-- `CheckGroupRoles(groles)`: what it returns, and the map. -/
def checkGroupRolesIn (n : ℕ) (groles : LfgRolesMap) : Option (Bool × LfgRolesMap) :=
  (checkIn n (removeLeader groles.values)).map fun (ok, roles) => (ok, groles.withValues roles)

/-! ## 2. Roles are put back -/

/-- The result of a search, with the roles as they were where there is none. -/
def checked (roles : List Role) : Option (List Role) → Bool × List Role
  | some assigned => (true, assigned)
  | none => (false, roles)

section Simulation

variable {check : List Role → Checked} {find : List Role → Option (List Role)}
  {before after : List Role} {own role : Role} {counts : Role → ℕ}

theorem getD_append_cons (before after : List Role) (own : Role) :
    (before ++ own :: after).getD before.length 0 = own := by
  simp [List.getD_eq_getElem?_getD]

theorem modify_append_cons (before after : List Role) (own : Role) (f : Role → Role) :
    (before ++ own :: after).modify before.length f = before ++ f own :: after := by
  induction before with
  | nil => rfl
  | cons role before ih => simpa using ih

/-- What the search for one role comes to, of either kind. -/
theorem tryRole_eq (hrole : role ∈ kinds)
    (hcheck : ∀ roles, total roles < total (before ++ own :: after) →
      check roles = some (checked roles (find roles))) :
    tryRole check before.length role (before ++ own :: after, counts) =
      match examine find before after own role counts with
      | .error result => .error (some (checked (before ++ own :: after) result))
      | .ok counts => .ok (before ++ own :: after, counts) := by
  simp only [tryRole, examine, getD_append_cons, modify_append_cons]
  by_cases hown : own &&& role = 0
  · simp only [if_pos hown]
  · simp only [if_neg hown]
    by_cases hne : own ≠ role
    · simp only [if_pos hne, hcheck _ (total_sub hrole hown)]
      cases find (before ++ (own - role) :: after) with
      | none => simp [checked, modify_append_cons, BitVec.sub_add_cancel]
      | some assigned => rfl
    · simp only [if_neg hne]
      split <;> rfl

theorem tryRoles_eq (hown : own ≠ .none)
    (hcheck : ∀ roles, total roles < total (before ++ own :: after) →
      check roles = some (checked roles (find roles))) :
    tryRoles check before.length (before ++ own :: after, counts) =
      match examineAll find before after own counts with
      | .error result => .error (some (checked (before ++ own :: after) result))
      | .ok counts => .ok (before ++ own :: after, counts) := by
  simp only [tryRoles, getD_append_cons, if_neg hown, examineAll]
  rw [tryRole_eq (by decide) hcheck]
  cases examine find before after own .damage counts with
  | error => rfl
  | ok counts =>
    simp only [bind, Except.bind]
    rw [tryRole_eq (by decide) hcheck]
    cases examine find before after own .healer counts with
    | error => rfl
    | ok counts => exact tryRole_eq (by decide) hcheck

theorem search_eq (after : List Role) : ∀ (before : List Role) (counts : Role → ℕ),
    (∀ roles, total roles < total (before ++ after) →
      check roles = some (checked roles (find roles))) →
    search check (List.range' before.length after.length) (before ++ after, counts) =
      some (checked (before ++ after) (checkFrom find before after counts)) := by
  induction after with
  | nil =>
    intro before counts _
    simp only [List.length_nil, List.range'_zero, List.append_nil, search, checkFrom]
    split
    · rename_i hsum
      rw [decide_eq_true hsum]
      rfl
    · rename_i hsum
      rw [decide_eq_false hsum]
      rfl
  | cons own after ih =>
    intro before counts hcheck
    simp only [List.length_cons, List.range'_succ, search, checkFrom]
    by_cases hown : own = .none
    · simp [tryRoles, hown, checked]
    · rw [tryRoles_eq hown hcheck, if_neg hown]
      cases examineAll find before after own counts with
      | error result => rfl
      | ok counts =>
        have hnext := ih (before ++ [own]) counts (by simpa using hcheck)
        simpa using hnext

end Simulation

theorem checkIn_eq (n : ℕ) : ∀ {m : ℕ} {roles : List Role}, total roles < n → total roles < m →
    checkIn n roles = some (checked roles (checkRoles m roles)) := by
  induction n with
  | zero => exact fun h => absurd h (Nat.not_lt_zero _)
  | succ n ih =>
    intro m roles hn hm
    obtain ⟨m, rfl⟩ : ∃ k, m = k + 1 := ⟨m - 1, by omega⟩
    by_cases hnil : roles = []
    · simp [checkIn, checkRoles, hnil, checked]
    · have hsearch := @search_eq (checkIn n) (checkRoles m) roles [] (fun _ => 0)
        fun roles' hlt => ih (by rw [List.nil_append] at hlt; omega)
          (by rw [List.nil_append] at hlt; omega)
      simpa [checkIn, checkRoles, hnil, List.range_eq_range'] using hsearch

/-- **The search in place** is the search of `Roles`, and puts back what it took. -/
theorem checkGroupRolesIn_eq (roles : LfgRolesMap) {n : ℕ}
    (hn : total (removeLeader roles.values) < n) :
    checkGroupRolesIn n roles =
      some ((LFGQueue.assignRoles roles).2, (LFGQueue.assignRoles roles).1) := by
  simp only [checkGroupRolesIn, checkIn_eq n hn (Nat.lt_succ_self _), Option.map_some,
    LFGQueue.assignRoles, checkGroupRoles]
  cases checkRoles (total (removeLeader roles.values) + 1) (removeLeader roles.values) <;> rfl

/-! ## 3. Nothing is missed -/

/-- What is left of the bits when the flag of the leader is gone. -/
def masks : List Role := [0x00, 0x02, 0x04, 0x06, 0x08, 0x0A, 0x0C, 0x0E]

theorem removeLeader_mem_masks : ∀ role : Role, role &&& 0x0F = role →
    role &&& ~~~ Role.leader ∈ masks := by decide

theorem sub_mem_masks : ∀ own ∈ masks, ∀ role ∈ kinds, own &&& role ≠ 0 → own - role ∈ masks := by
  decide

/-- A role that is not assigned is one to take away. -/
theorem exists_left_out : ∀ own ∈ masks, ∀ a : Role, a ≠ 0 → own &&& a = a → own ≠ a →
    ∃ role ∈ kinds, own &&& role ≠ 0 ∧ own ≠ role ∧ (own - role) &&& a = a := by decide

theorem single_of_allows : ∀ own ∈ kinds, ∀ a : Role, a ≠ 0 → own &&& a = a → own = a := by
  decide

/-- Each player keeps some of his roles, and so many players keep a single one; of each kind these
are no more than are needed. -/
structure Partly (number : ℕ) (roles assigned : List Role) : Prop where
  allowed : List.Forall₂ (fun own a => Allows own a ∧ a ≠ 0) roles assigned
  bounded : ∀ role ∈ kinds, assigned.count role ≤ needed role
  number : assigned.countP (· ∈ kinds) = number

section Loop

variable {find : List Role → Option (List Role)} {before after rest : List Role} {own role : Role}
  {counts counts' : Role → ℕ}

theorem examine_error_none (h : examine find before after own role counts = .error none) :
    own = role ∧ counts role = needed role := by
  simp only [examine] at h
  split at h
  · nomatch h
  · split at h
    · split at h <;> nomatch h
    · rename_i heq
      split at h
      · exact ⟨not_not.mp heq, ‹_›⟩
      · nomatch h

/-- `false` is returned for a player of whose kind there are enough. -/
theorem examineAll_error_none (h : examineAll find before after own counts = .error none) :
    own ∈ kinds ∧ counts own = needed own := by
  have hdh : Role.healer ≠ Role.damage := by decide
  have hdt : Role.tank ≠ Role.damage := by decide
  have hht : Role.tank ≠ Role.healer := by decide
  rcases bind_eq_error h with h | ⟨counts₁, hdamage, h⟩
  · obtain ⟨rfl, hcount⟩ := examine_error_none h
    exact ⟨by decide, hcount⟩
  have hone := (examine_ok (by decide) hdamage).2
  rcases bind_eq_error h with h | ⟨counts₂, hhealer, h⟩
  · obtain ⟨rfl, hcount⟩ := examine_error_none h
    exact ⟨by decide, by simpa [hone, hdh] using hcount⟩
  · have htwo := (examine_ok (by decide) hhealer).2
    obtain ⟨rfl, hcount⟩ := examine_error_none h
    exact ⟨by decide, by simpa [hone, htwo, hdt, hht] using hcount⟩

theorem examine_ok_none (h : examine find before after own role counts = .ok counts')
    (hown : own &&& role ≠ 0) (hne : own ≠ role) :
    find (before ++ (own - role) :: after) = none := by
  simp only [examine, if_neg hown, if_pos hne] at h
  split at h
  · nomatch h
  · assumption

/-- Where the loop goes on, no call inside found anything. -/
theorem examineAll_ok_none (h : examineAll find before after own counts = .ok counts') :
    ∀ role ∈ kinds, own &&& role ≠ 0 → own ≠ role →
      find (before ++ (own - role) :: after) = none := by
  obtain ⟨counts₁, hdamage, h⟩ := bind_eq_ok h
  obtain ⟨counts₂, hhealer, htank⟩ := bind_eq_ok h
  intro role hrole hown hne
  simp only [kinds, List.mem_cons, List.not_mem_nil, or_false] at hrole
  rcases hrole with rfl | rfl | rfl
  · exact examine_ok_none hdamage hown hne
  · exact examine_ok_none hhealer hown hne
  · exact examine_ok_none htank hown hne

/-- **The loop finds something** where there is something to be found: the players it has been
through keep their roles, or a call inside has found something else. -/
theorem checkFrom_complete (after : List Role) : ∀ (before : List Role) {counts : Role → ℕ}
    {rest : List Role}, (∀ own ∈ before ++ after, own ∈ masks) → Counted before counts →
    Partly ((before ++ after).length % 2 ^ 8) (before ++ after) (before ++ rest) →
    (∀ roles assigned, total roles < total (before ++ after) → roles ≠ [] →
      (∀ own ∈ roles, own ∈ masks) → Partly (roles.length % 2 ^ 8) roles assigned →
      (find roles).isSome) →
    (checkFrom find before after counts).isSome := by
  induction after with
  | nil =>
    intro before counts rest _ hcounted h _
    have hrest : rest = [] := by
      have := h.allowed.length_eq
      simpa using this
    have hnumber := h.number
    rw [hrest, List.append_nil, countP_kinds, ← hcounted.count _ (by decide),
      ← hcounted.count _ (by decide), ← hcounted.count _ (by decide)] at hnumber
    simp [checkFrom, hnumber]
  | cons own after ih =>
    intro before counts rest hmasks hcounted h hfind
    have hdrop := List.forall₂_drop before.length h.allowed
    rw [List.drop_left, List.drop_left] at hdrop
    obtain ⟨a, rest, ⟨hallows, hne⟩, hafter, rfl⟩ := List.forall₂_cons_left_iff.mp hdrop
    have hown : own ∈ masks := hmasks own (List.mem_append_right _ List.mem_cons_self)
    have hnone : own ≠ .none := by
      rintro rfl
      exact hne (by simpa [Allows, Role.none] using hallows.symm)
    simp only [checkFrom, if_neg hnone]
    split
    · rename_i result hresult
      cases result with
      | some assigned => rfl
      | none =>
        obtain ⟨hkind, hcount⟩ := examineAll_error_none hresult
        obtain rfl := single_of_allows own hkind a hne hallows
        have hle := h.bounded own hkind
        rw [List.count_append, List.count_cons_self, ← hcounted.count own hkind] at hle
        omega
    · rename_i counts' hcounts
      by_cases heq : own = a
      · subst heq
        refine @ih (before ++ [own]) _ rest ?_ (hcounted.next hcounts) ?_ ?_
        · simpa using hmasks
        · simpa using h
        · simpa using hfind
      · obtain ⟨role, hrole, hmem, hrne, hleft⟩ := exists_left_out own hown a hne hallows heq
        have hnot := examineAll_ok_none hcounts role hrole hmem hrne
        have hfound := hfind (before ++ (own - role) :: after) (before ++ a :: rest)
          (total_sub hrole hmem) (by simp) ?_ ⟨?_, h.bounded, ?_⟩
        · rw [hnot] at hfound
          exact absurd hfound Bool.false_ne_true
        · intro r hr
          rcases List.mem_append.mp hr with hr | hr
          · exact hmasks r (List.mem_append_left _ hr)
          · rcases List.mem_cons.mp hr with rfl | hr
            · exact sub_mem_masks own hown role hrole hmem
            · exact hmasks r (List.mem_append_right _ (List.mem_cons_of_mem own hr))
        · have hbefore := List.forall₂_take before.length h.allowed
          rw [List.take_left, List.take_left] at hbefore
          exact List.rel_append hbefore (.cons ⟨hleft, hne⟩ hafter)
        · simpa using h.number

end Loop

theorem checkRoles_complete (n : ℕ) : ∀ {roles assigned : List Role}, total roles < n →
    roles ≠ [] → (∀ own ∈ roles, own ∈ masks) →
    Partly (roles.length % 2 ^ 8) roles assigned → (checkRoles n roles).isSome := by
  induction n with
  | zero => exact fun h => absurd h (Nat.not_lt_zero _)
  | succ n ih =>
    intro roles assigned hn hnil hmasks h
    simp only [checkRoles, if_neg hnil]
    refine @checkFrom_complete _ roles [] _ assigned hmasks
      ⟨fun role _ => (List.count_nil).symm, fun _ _ => Nat.zero_le _⟩ h ?_
    intro roles' assigned' hlt hnil' hmasks' h'
    rw [List.nil_append] at hlt
    exact ih (by omega) hnil' hmasks' h'

/-! ## 4. The answer -/

theorem allows_removeLeader_kind : ∀ a ∈ kinds, ∀ own : Role, Allows own a →
    Allows (own &&& ~~~ Role.leader) a := by
  simp only [Allows]
  decide

theorem mem_masks_of_mem_removeLeader {roles : List Role} (h : ∀ own ∈ roles, own &&& 0x0F = own) :
    ∀ own ∈ removeLeader roles, own ∈ masks := by
  intro own hown
  obtain ⟨role, hrole, rfl⟩ := List.mem_map.mp hown
  exact removeLeader_mem_masks role (h role hrole)

/-- An assignment is one of the roles without the flag of the leader, and of all the players. -/
theorem Assigned.partly {roles assigned : List Role} (h : Assigned roles assigned) :
    Partly roles.length (removeLeader roles) assigned := by
  refine ⟨?_, h.bounded, ?_⟩
  · refine List.forall₂_map_left_iff.mpr ?_
    have hboth : ∀ {roles assigned : List Role}, List.Forall₂ Allows roles assigned →
        (∀ a ∈ assigned, a ∈ kinds) → List.Forall₂ (fun own a => Allows own a ∧ a ∈ kinds)
          roles assigned := by
      intro roles assigned hallowed hsingle
      induction hallowed with
      | nil => exact .nil
      | cons hown _ ih =>
        obtain ⟨ha, hsingle⟩ := List.forall_mem_cons.mp hsingle
        exact .cons ⟨hown, ha⟩ (ih hsingle)
    exact (hboth h.allowed h.single).imp fun {own a} ⟨hallows, ha⟩ =>
      ⟨allows_removeLeader_kind a ha own hallows, ne_zero_of_kind a ha⟩
  · rw [h.allowed.length_eq]
    exact List.countP_eq_length.mpr fun a ha => decide_eq_true (h.single a ha)

/-- **`CheckGroupRoles` decides whether a group can be formed.**  For fewer than 256 players it
comes to an end and says so exactly when they can be given roles; then these are in the map, and
else the roles that were, without the flag of the leader. -/
theorem checkGroupRolesIn_spec (roles : LfgRolesMap) (hne : roles.entries ≠ [])
    (hsize : roles.size < 2 ^ 8) (hmasks : ∀ role ∈ roles.values, role &&& 0x0F = role) :
    ∃ ok left, (∃ n, ∀ m, n ≤ m → checkGroupRolesIn m roles = some (ok, left)) ∧
      left.keys = roles.keys ∧
      (ok = true ↔ ∃ assigned, Assigned roles.values assigned) ∧
      (ok = true → Assigned roles.values left.values) ∧
      (ok = false → left.values = removeLeader roles.values) := by
  have hlength : roles.values.length = roles.size := List.length_map _
  refine ⟨_, _, ⟨_, fun m hm => checkGroupRolesIn_eq roles hm⟩, ?_⟩
  simp only [LFGQueue.assignRoles]
  cases hcheck : checkGroupRoles roles.values with
  | some assigned =>
    have hassigned := checkGroupRoles_spec (hlength ▸ hsize) hcheck
    have hsame : assigned.length = roles.size := hlength ▸ hassigned.allowed.length_eq.symm
    rw [roles.keys_withValues hsame, roles.values_withValues hsame]
    exact ⟨rfl, by simpa using ⟨assigned, hassigned⟩, fun _ => hassigned, nofun⟩
  | none =>
    have hsame : (removeLeader roles.values).length = roles.size := by
      simp [removeLeader, hlength]
    rw [roles.keys_withValues hsame, roles.values_withValues hsame]
    refine ⟨rfl, ?_, nofun, fun _ => rfl⟩
    simp only [Bool.false_eq_true, false_iff]
    rintro ⟨assigned, hassigned⟩
    have hnil : removeLeader roles.values ≠ [] := by
      simpa [removeLeader, System.SortedMap.values] using hne
    have hpartly : Partly ((removeLeader roles.values).length % 2 ^ 8) (removeLeader roles.values)
        assigned := by
      rw [hsame, Nat.mod_eq_of_lt hsize, ← hlength]
      exact hassigned.partly
    have hfound := checkRoles_complete _ (Nat.lt_succ_self (total (removeLeader roles.values))) hnil
      (mem_masks_of_mem_removeLeader hmasks) hpartly
    rw [checkGroupRoles] at hcheck
    rw [hcheck] at hfound
    nomatch hfound

theorem checkGroupRolesIn_spec_example :
    ∃ ok left, (∃ n, ∀ m, n ≤ m →
        checkGroupRolesIn m ⟨[(1, 0x07), (2, 0x06)], by decide⟩ = some (ok, left)) ∧
      left.keys = [1, 2] ∧
      (ok = true ↔ ∃ assigned, Assigned [0x07, 0x06] assigned) ∧
      (ok = true → Assigned [0x07, 0x06] left.values) ∧
      (ok = false → left.values = removeLeader [0x07, 0x06]) :=
  checkGroupRolesIn_spec ⟨[(1, 0x07), (2, 0x06)], by decide⟩ (by decide) (by decide) (by decide)

/-! ## 5. More players than a byte can count -/

/-- 256 players who can be tank or healer. -/
def crowd : LfgRolesMap where
  entries := (List.range 256).map fun i => (i, 0x06)
  sorted := List.pairwise_map.mpr List.pairwise_lt_range

theorem values_crowd : crowd.values = List.replicate 256 0x06 := by
  have hmap : ∀ n, ((List.range n).map fun i => (i, (0x06 : Role))).map Prod.snd =
      List.replicate n 0x06 := by
    intro n
    rw [List.map_map]
    refine List.eq_replicate_iff.mpr ⟨by simp, fun b hb => ?_⟩
    obtain ⟨i, -, rfl⟩ := List.mem_map.mp hb
    rfl
  exact hmap 256

theorem partly_zero (n : ℕ) : Partly 0 (List.replicate n 0x06) (List.replicate n 0x06) := by
  refine ⟨List.forall₂_same.mpr fun own hown => ?_, fun role hrole => ?_, ?_⟩
  · obtain rfl := List.eq_of_mem_replicate hown
    exact ⟨.refl _, by decide⟩
  · have hne : ∀ role ∈ kinds, (0x06 : Role) ≠ role := by decide
    rw [List.count_replicate, if_neg (by simpa using hne role hrole)]
    exact Nat.zero_le _
  · rw [List.countP_replicate, if_neg (by decide)]

/-- As many such players as make 0 are said to have roles. -/
theorem accepted_of_replicate {roles : LfgRolesMap} {n : ℕ} (hpos : n ≠ 0) (hn : n % 2 ^ 8 = 0)
    (h : roles.values = List.replicate n 0x06) :
    ∃ k left, checkGroupRolesIn k roles = some (true, left) := by
  have hremoved : removeLeader roles.values = List.replicate n 0x06 := by
    rw [h, removeLeader, List.map_replicate]
    rfl
  have hmasks : ∀ own ∈ roles.values, own &&& 0x0F = own := by
    intro own hown
    rw [h] at hown
    rw [List.eq_of_mem_replicate hown]
    decide
  have hpartly : Partly ((removeLeader roles.values).length % 2 ^ 8) (removeLeader roles.values)
      (List.replicate n 0x06) := by
    rw [hremoved, List.length_replicate, hn]
    exact partly_zero n
  have hnil : removeLeader roles.values ≠ [] := by
    rw [hremoved, ne_eq, List.replicate_eq_nil_iff]
    exact hpos
  have hfound := checkRoles_complete _ (Nat.lt_succ_self (total (removeLeader roles.values)))
    hnil (mem_masks_of_mem_removeLeader hmasks) hpartly
  obtain ⟨assigned, hassigned⟩ := Option.isSome_iff_exists.mp hfound
  have heq := checkGroupRolesIn_eq roles (Nat.lt_succ_self _)
  simp only [LFGQueue.assignRoles, checkGroupRoles, hassigned] at heq
  exact ⟨_, _, heq⟩

/-- No group has more than five players. -/
theorem Assigned.length_le {roles assigned : List Role} (h : Assigned roles assigned) :
    roles.length ≤ 5 := by
  have hcount := List.countP_eq_length.mpr fun role hrole => decide_eq_true (h.single role hrole)
  rw [countP_kinds, ← h.allowed.length_eq] at hcount
  have htank := h.bounded .tank (by decide)
  have hhealer := h.bounded .healer (by decide)
  have hdamage := h.bounded .damage (by decide)
  have hneeded : needed .tank = 1 ∧ needed .healer = 1 ∧ needed .damage = 3 := by decide
  omega

/-- **256 players are said to have roles**: none of them keeps a single one, and as a byte their
number is 0.  But a group has no more than five. -/
theorem crowd_accepted :
    (∃ n left, checkGroupRolesIn n crowd = some (true, left)) ∧
      ¬ ∃ assigned, Assigned crowd.values assigned := by
  refine ⟨accepted_of_replicate (by decide) (by decide) values_crowd, ?_⟩
  rintro ⟨assigned, h⟩
  have hlength := h.length_le
  rw [values_crowd, List.length_replicate] at hlength
  exact absurd hlength (by decide)

end HungerGames.Lfg
