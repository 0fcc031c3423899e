/-
# The roles of a group

A player of the dungeon finder selects roles, as bits of a byte.  `CheckGroupRoles` looks for one
role for each player of a group, so that there are at most one tank, one healer and three damage
dealers.  It goes through the players in the order of the map.  Of a player with several roles it
takes one away and calls itself, and puts the role back when that comes to nothing.

The map is a list of bytes here, and `none` is `false`: the roles are then as they were, but for
the flag of the leader.
-/
import Mathlib.Data.List.Count
import Mathlib.Data.List.Forall2
import Mathlib.Algebra.GroupWithZero.Nat

namespace HungerGames.Lfg

/-! ## 1. Roles -/

abbrev Role := BitVec 8

namespace Role

/-- `PLAYER_ROLE_NONE` -/
def none : Role := 0x00

/-- `PLAYER_ROLE_LEADER` -/
def leader : Role := 0x01

/-- `PLAYER_ROLE_TANK` -/
def tank : Role := 0x02

/-- `PLAYER_ROLE_HEALER` -/
def healer : Role := 0x04

/-- `PLAYER_ROLE_DAMAGE` -/
def damage : Role := 0x08

end Role

/-- `LFG_TANKS_NEEDED`, `LFG_HEALERS_NEEDED` and `LFG_DPS_NEEDED` -/
def needed (role : Role) : ℕ := if role = .damage then 3 else 1

/-! ## 2. `CheckGroupRoles` -/

/-- One role of a player, who is between `before` and `after`.  The result is what the call
returns, if it returns here, or else the counters. -/
def examine (check : List Role → Option (List Role)) (before after : List Role) (own role : Role)
    (counts : Role → ℕ) : Except (Option (List Role)) (Role → ℕ) :=
  if own &&& role = 0 then .ok counts
  else if own ≠ role then
    match check (before ++ (own - role) :: after) with
    | some roles => .error (some roles)
    | none => .ok counts
  else if counts role = needed role then .error none
  else .ok (Function.update counts role (counts role + 1))

/-- The three roles of a player. -/
def examineAll (check : List Role → Option (List Role)) (before after : List Role) (own : Role)
    (counts : Role → ℕ) : Except (Option (List Role)) (Role → ℕ) := do
  let counts ← examine check before after own .damage counts
  let counts ← examine check before after own .healer counts
  examine check before after own .tank counts

/-- The loop over the players, from the first after `before`. -/
def checkFrom (check : List Role → Option (List Role)) (before : List Role) :
    List Role → (Role → ℕ) → Option (List Role)
  | [], counts =>
    if counts .tank + counts .healer + counts .damage = before.length % 2 ^ 8 then some before
    else none
  | own :: after, counts =>
    if own = .none then none
    else match examineAll check before after own counts with
      | .error result => result
      | .ok counts => checkFrom check (before ++ [own]) after counts

/-- `CheckGroupRoles` without the flag of the leader, in at most `n` calls one inside another. -/
def checkRoles : ℕ → List Role → Option (List Role)
  | 0, _ => none
  | n + 1, roles => if roles = [] then none else checkFrom (checkRoles n) [] roles fun _ => 0

/-- The flag of the leader is removed. -/
def removeLeader (roles : List Role) : List Role := roles.map (· &&& ~~~ Role.leader)

def total (roles : List Role) : ℕ := (roles.map BitVec.toNat).sum

/-- `CheckGroupRoles`.  Each call inside another is for smaller roles. -/
def checkGroupRoles (roles : List Role) : Option (List Role) :=
  checkRoles (total (removeLeader roles) + 1) (removeLeader roles)

/-! ## 3. What is assigned -/

/-- A role is among those selected. -/
def Allows (selected role : Role) : Prop := selected &&& role = role

theorem Allows.refl (role : Role) : Allows role role := BitVec.and_self

theorem Allows.trans {r₁ r₂ r₃ : Role} (h : Allows r₁ r₂) (h' : Allows r₂ r₃) : Allows r₁ r₃ := by
  calc r₁ &&& r₃ = r₁ &&& r₂ &&& r₃ := by rw [BitVec.and_assoc, h']
    _ = r₃ := by rw [h, h']

theorem forall₂_allows_trans {xs ys : List Role} (h : List.Forall₂ Allows xs ys) :
    ∀ {zs : List Role}, List.Forall₂ Allows ys zs → List.Forall₂ Allows xs zs := by
  induction h with
  | nil => exact id
  | cons hxy _ ih =>
    intro zs h'
    cases h' with
    | cons hyz h' => exact .cons (hxy.trans hyz) (ih h')

/-- The roles there is a counter for. -/
def kinds : List Role := [.damage, .healer, .tank]

/-- One role for each player, which he has selected, and of each kind at most as many as are
needed. -/
structure Assigned (roles assigned : List Role) : Prop where
  allowed : List.Forall₂ Allows roles assigned
  single : ∀ role ∈ assigned, role ∈ kinds
  bounded : ∀ role ∈ kinds, assigned.count role ≤ needed role

theorem twoPow_of_kind : ∀ role ∈ kinds, ∃ i, role = BitVec.twoPow 8 i := by
  intro role hrole
  rcases List.mem_cons.mp hrole with rfl | hrole
  · exact ⟨3, by decide⟩
  rcases List.mem_cons.mp hrole with rfl | hrole
  · exact ⟨2, by decide⟩
  · exact ⟨1, List.mem_singleton.mp hrole⟩

/-- A kind is one bit: a player has selected it or none of it. -/
theorem allows_of_kind {own role : Role} (hrole : role ∈ kinds) (h : own &&& role ≠ 0) :
    Allows own role := by
  obtain ⟨i, rfl⟩ := twoPow_of_kind role hrole
  unfold Allows
  rw [BitVec.and_twoPow] at h ⊢
  split
  · rfl
  · rename_i hbit
    exact absurd (if_neg hbit) h

theorem sub_of_allows {own role : Role} (h : Allows own role) :
    own - role = own &&& ~~~role := by
  have hdisjoint : own &&& ~~~role &&& role = 0 := by
    rw [BitVec.and_assoc, BitVec.not_and_self]
    exact BitVec.and_zero
  refine BitVec.sub_eq_iff_eq_add.mpr ?_
  calc own = own &&& (~~~role ||| role) := by
        rw [BitVec.not_or_self, BitVec.and_allOnes]
    _ = own &&& ~~~role ||| role := by rw [BitVec.and_or_distrib_left, h]
    _ = (own &&& ~~~role) + role := (BitVec.add_eq_or_of_and_eq_zero _ _ hdisjoint).symm

theorem ne_zero_of_kind : ∀ role ∈ kinds, role ≠ 0 := by decide

theorem sub_kind (role : Role) (hrole : role ∈ kinds) (own : Role) (h : own &&& role ≠ 0) :
    Allows own (own - role) ∧ (own - role).toNat < own.toNat := by
  have hallows := allows_of_kind hrole h
  constructor
  · unfold Allows
    rw [sub_of_allows hallows, ← BitVec.and_assoc, BitVec.and_self]
  · have hle : role.toNat ≤ own.toNat := by
      calc role.toNat = own.toNat &&& role.toNat := by rw [← BitVec.toNat_and, hallows]
        _ ≤ own.toNat := Nat.and_le_left
    have hpos : role.toNat ≠ 0 := fun hzero =>
      ne_zero_of_kind role hrole (BitVec.eq_of_toNat_eq hzero)
    rw [BitVec.toNat_sub_of_le (BitVec.le_def.mpr hle)]
    omega

section Loop

variable {check : List Role → Option (List Role)} {before after : List Role} {own role : Role}
  {counts counts' : Role → ℕ} {roles : List Role}

theorem examine_ok (hrole : role ∈ kinds)
    (h : examine check before after own role counts = .ok counts') :
    (own = role → counts role ≠ needed role) ∧
      ∀ r, counts' r = counts r + if r = role ∧ own = role then 1 else 0 := by
  unfold examine at h
  split at h
  · rename_i hzero
    obtain rfl := Except.ok.inj h
    have hne : own ≠ role := by
      rintro rfl
      exact ne_zero_of_kind own hrole (BitVec.and_self.symm.trans hzero)
    exact ⟨fun heq => absurd heq hne, fun r => by rw [if_neg fun hr => hne hr.2]; rfl⟩
  · split at h
    · rename_i hne
      split at h
      · nomatch h
      · obtain rfl := Except.ok.inj h
        exact ⟨fun heq => absurd heq hne, fun r => by rw [if_neg fun hr => hne hr.2]; rfl⟩
    · rename_i heq
      split at h
      · nomatch h
      · rename_i hcount
        obtain rfl := Except.ok.inj h
        refine ⟨fun _ => hcount, fun r => ?_⟩
        rw [Function.update_apply]
        by_cases hr : r = role
        · rw [if_pos hr, if_pos ⟨hr, not_not.mp heq⟩, hr]
        · rw [if_neg hr, if_neg fun h => hr h.1]
          rfl

theorem examine_error (h : examine check before after own role counts = .error (some roles)) :
    own &&& role ≠ 0 ∧ check (before ++ (own - role) :: after) = some roles := by
  unfold examine at h
  split at h
  · nomatch h
  · rename_i hne
    split at h
    · split at h
      · rename_i roles' hcheck
        obtain rfl := Option.some.inj (Except.error.inj h)
        exact ⟨hne, hcheck⟩
      · nomatch h
    · split at h <;> nomatch h

theorem bind_eq_ok {ε α β : Type} {x : Except ε α} {f : α → Except ε β} {b : β}
    (h : (x >>= f) = .ok b) : ∃ a, x = .ok a ∧ f a = .ok b := by
  cases x with
  | error => nomatch h
  | ok a => exact ⟨a, rfl, h⟩

theorem bind_eq_error {ε α β : Type} {x : Except ε α} {f : α → Except ε β} {e : ε}
    (h : (x >>= f) = .error e) : x = .error e ∨ ∃ a, x = .ok a ∧ f a = .error e := by
  cases x with
  | error => exact Or.inl (congrArg Except.error (Except.error.inj h))
  | ok a => exact Or.inr ⟨a, rfl, h⟩

/-- The three counters, when the loop goes on. -/
theorem examineAll_ok (h : examineAll check before after own counts = .ok counts') :
    ∀ role ∈ kinds, (own = role → counts role ≠ needed role) ∧
      counts' role = counts role + if own = role then 1 else 0 := by
  obtain ⟨counts₁, hdamage, h⟩ := bind_eq_ok h
  obtain ⟨counts₂, hhealer, htank⟩ := bind_eq_ok h
  obtain ⟨hdamage, hone⟩ := examine_ok (by decide) hdamage
  obtain ⟨hhealer, htwo⟩ := examine_ok (by decide) hhealer
  obtain ⟨htank, hthree⟩ := examine_ok (by decide) htank
  intro role hrole
  rw [hthree, htwo, hone]
  rw [hone] at hhealer
  rw [htwo, hone] at htank
  have hdh : Role.damage ≠ Role.healer := by decide
  have hdt : Role.damage ≠ Role.tank := by decide
  have hht : Role.healer ≠ Role.tank := by decide
  simp only [kinds, List.mem_cons, List.not_mem_nil, or_false] at hrole
  rcases hrole with rfl | rfl | rfl
  · exact ⟨hdamage, by simp [hdh, hdt]⟩
  · exact ⟨fun heq => by simpa [hdh.symm] using hhealer heq, by simp [hdh.symm, hht]⟩
  · exact ⟨fun heq => by simpa [hdt.symm, hht.symm] using htank heq,
      by simp [hdt.symm, hht.symm]⟩

/-- Where the call returns `true`, a call inside it has, with a role less. -/
theorem examineAll_error (h : examineAll check before after own counts = .error (some roles)) :
    ∃ role ∈ kinds, own &&& role ≠ 0 ∧ check (before ++ (own - role) :: after) = some roles := by
  rcases bind_eq_error h with h | ⟨counts₁, -, h⟩
  · exact ⟨.damage, by decide, examine_error h⟩
  rcases bind_eq_error h with h | ⟨counts₂, -, h⟩
  · exact ⟨.healer, by decide, examine_error h⟩
  · exact ⟨.tank, by decide, examine_error h⟩

end Loop

/-- The counters are of the players before, each of whom has one role. -/
structure Counted (before : List Role) (counts : Role → ℕ) : Prop where
  count : ∀ role ∈ kinds, counts role = before.count role
  bounded : ∀ role ∈ kinds, counts role ≤ needed role

theorem Counted.next {check : List Role → Option (List Role)} {before after : List Role}
    {own : Role} {counts counts' : Role → ℕ} (hcounted : Counted before counts)
    (h : examineAll check before after own counts = .ok counts') :
    Counted (before ++ [own]) counts' := by
  constructor
  · intro role hrole
    rw [(examineAll_ok h role hrole).2, hcounted.count role hrole, List.count_append,
      List.count_singleton]
    simp only [beq_iff_eq]
  · intro role hrole
    obtain ⟨hne, heq⟩ := examineAll_ok h role hrole
    have hle := hcounted.bounded role hrole
    rw [heq]
    split
    · have := hne ‹_›
      omega
    · exact hle

theorem countP_kinds (roles : List Role) :
    roles.countP (· ∈ kinds) = roles.count .tank + roles.count .healer + roles.count .damage := by
  induction roles with
  | nil => rfl
  | cons role roles ih =>
    rw [List.countP_cons, ih, List.count_cons, List.count_cons, List.count_cons]
    by_cases hmem : role ∈ kinds
    · simp only [kinds, List.mem_cons, List.not_mem_nil, or_false] at hmem
      rcases hmem with rfl | rfl | rfl <;>
        simp [kinds, Role.damage, Role.healer, Role.tank] <;> omega
    · have hne : role ≠ .tank ∧ role ≠ .healer ∧ role ≠ .damage := by
        simp only [kinds, List.mem_cons, List.not_mem_nil, or_false, not_or] at hmem
        exact ⟨hmem.2.2, hmem.2.1, hmem.1⟩
      simp [hmem, hne.1, hne.2.1, hne.2.2]

/-- As many players as the counters say have one role each. -/
theorem Counted.single {before : List Role} {counts : Role → ℕ} (h : Counted before counts)
    (hsum : counts .tank + counts .healer + counts .damage = before.length) :
    ∀ role ∈ before, role ∈ kinds := by
  rw [h.count _ (by decide), h.count _ (by decide), h.count _ (by decide), ← countP_kinds] at hsum
  exact fun role hrole => of_decide_eq_true (List.countP_eq_length.mp hsum role hrole)

/-- Five players are a tank, a healer and three damage dealers. -/
theorem Assigned.full {roles assigned : List Role} (h : Assigned roles assigned)
    (hlength : roles.length = 5) :
    assigned.count .tank = 1 ∧ assigned.count .healer = 1 ∧ assigned.count .damage = 3 := by
  have hcount := List.countP_eq_length.mpr fun role hrole => decide_eq_true (h.single role hrole)
  rw [countP_kinds, ← h.allowed.length_eq, hlength] at hcount
  have htank := h.bounded .tank (by decide)
  have hhealer := h.bounded .healer (by decide)
  have hdamage := h.bounded .damage (by decide)
  have hneeded : needed .tank = 1 ∧ needed .healer = 1 ∧ needed .damage = 3 := by decide
  omega

/-- What a call inside another finds is found by that. -/
theorem Assigned.of_sub {before after assigned : List Role} {own role : Role} (hrole : role ∈ kinds)
    (hown : own &&& role ≠ 0) (h : Assigned (before ++ (own - role) :: after) assigned) :
    Assigned (before ++ own :: after) assigned := by
  refine ⟨?_, h.single, h.bounded⟩
  have hself : ∀ roles : List Role, List.Forall₂ Allows roles roles := fun roles =>
    List.forall₂_same.mpr fun role _ => .refl role
  have hsub : List.Forall₂ Allows (before ++ own :: after) (before ++ (own - role) :: after) :=
    List.rel_append (hself before) (.cons (sub_kind role hrole own hown).1 (hself after))
  exact forall₂_allows_trans hsub h.allowed

theorem checkFrom_spec {check : List Role → Option (List Role)}
    (hcheck : ∀ {roles assigned : List Role}, roles.length < 2 ^ 8 → check roles = some assigned →
      Assigned roles assigned) (after : List Role) :
    ∀ (before : List Role) {assigned : List Role} {counts : Role → ℕ}, (before ++ after).length < 2 ^ 8 →
      Counted before counts → checkFrom check before after counts = some assigned →
      Assigned (before ++ after) assigned := by
  induction after with
  | nil =>
    intro before assigned counts hlength hcounted h
    rw [List.append_nil] at *
    unfold checkFrom at h
    split at h
    · rename_i hsum
      obtain rfl := Option.some.inj h
      rw [Nat.mod_eq_of_lt hlength] at hsum
      exact ⟨List.forall₂_same.mpr fun role _ => .refl role, hcounted.single hsum,
        fun role hrole => hcounted.count role hrole ▸ hcounted.bounded role hrole⟩
    · nomatch h
  | cons own after ih =>
    intro before assigned counts hlength hcounted h
    unfold checkFrom at h
    split at h
    · nomatch h
    split at h
    · rename_i result hresult
      obtain ⟨role, hrole, hown, hfound⟩ := examineAll_error (h ▸ hresult)
      refine (hcheck ?_ hfound).of_sub hrole hown
      rw [List.length_append, List.length_cons] at *
      exact hlength
    · rename_i counts' hcounts
      have hnext := ih (before ++ [own])
        (by rw [List.append_assoc]; exact hlength) (hcounted.next hcounts) h
      rw [List.append_assoc] at hnext
      exact hnext

theorem checkRoles_spec (n : ℕ) : ∀ {roles assigned : List Role}, roles.length < 2 ^ 8 →
    checkRoles n roles = some assigned → Assigned roles assigned := by
  induction n with
  | zero => exact fun _ h => nomatch h
  | succ n ih =>
    intro roles assigned hlength h
    unfold checkRoles at h
    split at h
    · nomatch h
    · exact checkFrom_spec ih roles [] hlength
        ⟨fun role _ => (List.count_nil).symm, fun _ _ => Nat.zero_le _⟩ h

theorem allows_removeLeader : ∀ role : Role, Allows role (role &&& ~~~ Role.leader) := by
  unfold Allows
  decide

/-- **`CheckGroupRoles`** assigns one role to each player, which he has selected, and not more of
a kind than are needed. -/
theorem checkGroupRoles_spec {roles assigned : List Role} (hlength : roles.length < 2 ^ 8)
    (h : checkGroupRoles roles = some assigned) : Assigned roles assigned := by
  have hremoved : (removeLeader roles).length = roles.length := List.length_map _
  have hassigned := checkRoles_spec _ (hremoved.symm ▸ hlength) h
  refine ⟨?_, hassigned.single, hassigned.bounded⟩
  have hremove : List.Forall₂ Allows roles (removeLeader roles) := by
    refine List.forall₂_map_right_iff.mpr (List.forall₂_same.mpr fun role _ => ?_)
    exact allows_removeLeader role
  exact forall₂_allows_trans hremove hassigned.allowed

/-! ## 4. Calls inside calls -/

theorem total_sub {before after : List Role} {own role : Role} (hrole : role ∈ kinds)
    (hown : own &&& role ≠ 0) :
    total (before ++ (own - role) :: after) < total (before ++ own :: after) := by
  have hlt := (sub_kind role hrole own hown).2
  unfold total
  simp only [List.map_append, List.map_cons, List.sum_append, List.sum_cons]
  omega

example : checkGroupRoles [0x0F, 0x0A, 0x08, 0x0C, 0x08] = some [0x02, 0x08, 0x08, 0x04, 0x08] := by
  decide

end HungerGames.Lfg
