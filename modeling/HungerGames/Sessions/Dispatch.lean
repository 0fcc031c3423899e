/-
# Packets are dispatched once and in order

Whatever the order of arrivals, Updates and what happens to the player, every packet that
arrived is in the queue or has been deleted, once; a handler gets it at most once, and with the
status of its opcode met; an Update takes at most 101 packets and none of them twice.

The packets that wait for their player keep their order as long as an Update that has put one
back comes to all the others before it.  The limit on the packets of an Update can prevent that,
and so can a packet that arrives in the meantime: `Keeps` is the condition on a step under which
the order is kept and no packet put back is lost.

* `Split`: what the Update has yet to take, and what it has put back or what arrived since;
* `Safe`: the invariant of every run;
* `Ordered`: the invariant of the runs whose steps meet the condition;
* `dispatch_sound`: the run theorem.
-/
import HungerGames.Sessions.WorldSession
import Mathlib.Data.List.Nodup
import Mathlib.Data.List.Perm.Basic
import Mathlib.Data.List.Range

namespace HungerGames.Sessions

open HungerGames.System WorldSession

variable {rules : Rules}

/-! ## 1. Verdicts and statuses -/

/-- The status of the packet's opcode is met. -/
def StatusMet (rules : Rules) (login : Login) (packet : WorldPacket) : Prop :=
  packet.opcode < numMsgTypes ∧
    match (rules.opcodeTable packet.opcode).status with
    | .loggedIn => login.player = some true
    | .transfer => login.player = some false
    | .loggedInOrRecentlyLoggout =>
      login.player.isSome = true ∨ login.recentlyLogout = true ∨ login.playerLogout = true
    | .authed => login.inQueue = false
    | .never => False
    | .unhandled => False

variable {packet : WorldPacket}

theorem dispatch_met {login : Login} (h : dispatch rules login packet = .met) :
    StatusMet rules (loginFor rules login packet) packet := by
  unfold dispatch at h
  unfold StatusMet loginFor
  split at h
  · cases h
  · rename_i hopcode
    refine ⟨Nat.lt_of_not_le hopcode, ?_⟩
    cases hstatus : (rules.opcodeTable packet.opcode).status with
    | authed =>
      rw [hstatus] at h
      cases hqueue : login.inQueue with
      | true => simp only [hqueue, if_true] at h; cases h
      | false =>
        dsimp only
        split
        · rfl
        · exact hqueue
    | loggedIn =>
      rw [hstatus] at h
      rw [if_neg fun hboth => nomatch hboth.1]
      cases hplayer : login.player with
      | none => simp only [hplayer] at h; split at h <;> cases h
      | some inWorld => cases inWorld with
        | true => rfl
        | false => simp [hplayer] at h
    | transfer =>
      rw [hstatus] at h
      rw [if_neg fun hboth => nomatch hboth.1]
      cases hplayer : login.player with
      | none => simp [hplayer] at h
      | some inWorld => cases inWorld with
        | true => simp [hplayer] at h
        | false => rfl
    | loggedInOrRecentlyLoggout =>
      rw [hstatus] at h
      rw [if_neg fun hboth => nomatch hboth.1]
      dsimp only at h ⊢
      split at h
      · cases h
      · rename_i hcond
        cases hplayer : login.player with
        | some inWorld => exact Or.inl rfl
        | none =>
          rw [hplayer] at hcond
          cases hrecently : login.recentlyLogout with
          | true => exact Or.inr (Or.inl rfl)
          | false =>
            cases hlogout : login.playerLogout with
            | true => exact Or.inr (Or.inr rfl)
            | false => simp [hrecently, hlogout] at hcond
    | never => rw [hstatus] at h; cases h
    | unhandled => rw [hstatus] at h; cases h

/-- A packet is put back only when it waits for a player who is not there. -/
theorem dispatch_delayed {login : Login} (h : dispatch rules login packet = .delayed) :
    waits rules packet = true ∧ login.player = none := by
  unfold dispatch at h
  split at h
  · cases h
  · rename_i hopcode
    cases hstatus : (rules.opcodeTable packet.opcode).status with
    | loggedIn =>
      rw [hstatus] at h
      refine ⟨decide_eq_true ⟨Nat.lt_of_not_le hopcode, hstatus⟩, ?_⟩
      cases hplayer : login.player with
      | none => rfl
      | some inWorld => cases inWorld <;> simp [hplayer] at h
    | transfer =>
      rw [hstatus] at h
      cases hplayer : login.player with
      | none => simp [hplayer] at h
      | some inWorld => cases inWorld <;> simp [hplayer] at h
    | authed => rw [hstatus] at h; dsimp only at h; split at h <;> cases h
    | loggedInOrRecentlyLoggout => rw [hstatus] at h; dsimp only at h; split at h <;> cases h
    | never => rw [hstatus] at h; cases h
    | unhandled => rw [hstatus] at h; cases h

/-- A packet that waits is met when its player is in the world. -/
theorem dispatch_met_waits {login : Login} (h : dispatch rules login packet = .met)
    (hwaits : waits rules packet = true) : login.player = some true := by
  obtain ⟨-, hstatus⟩ := of_decide_eq_true hwaits
  obtain ⟨-, hmet⟩ := dispatch_met h
  unfold loginFor at hmet
  rw [hstatus] at hmet
  rw [if_neg fun hboth => SessionStatus.noConfusion hboth.1] at hmet
  exact hmet

namespace WorldSession

theorem verdict_met {s : WorldSession} {u : Update} (h : s.verdict rules u packet = .met) :
    dispatch rules s.login packet = .met := by
  unfold verdict at h
  split at h
  · exact h
  · cases h

theorem verdict_delayed {s : WorldSession} {u : Update} (h : s.verdict rules u packet = .delayed) :
    dispatch rules s.login packet = .delayed := by
  unfold verdict at h
  split at h
  · exact h
  · cases h

/-! ## 2. What is left to take -/

/-- The first packet that the Update under way has put back. -/
def firstDelayed (s : WorldSession) : Option ℕ := s.update.bind Update.firstDelayedPacket

/-- What the Update under way has yet to take: the queue in front of the first packet it has put
back. -/
def front (s : WorldSession) : List WorldPacket :=
  match s.firstDelayed with
  | none => s.recvQueue
  | some pointer => s.recvQueue.takeWhile fun packet => packet.pointer ≠ pointer

end WorldSession

/-- The queue is what is left to take and what follows, which begins with the first packet put
back. -/
structure Split (queue : List WorldPacket) (first : Option ℕ) (front back : List WorldPacket) :
    Prop where
  queue : queue = front ++ back
  first : back.head?.map WorldPacket.pointer = first

theorem Split.all (queue : List WorldPacket) : Split queue none queue [] :=
  ⟨(List.append_nil queue).symm, rfl⟩

variable {queue : List WorldPacket}

theorem Split.back_nil {front back : List WorldPacket} (h : Split queue none front back) :
    back = [] := by
  cases back with
  | nil => rfl
  | cons packet back => exact absurd h.first (Option.some_ne_none _)

variable {first : Option ℕ} {rest : List WorldPacket}

/-- When the loop takes a packet, it takes one of those that were left. -/
theorem Split.take {front back : List WorldPacket} (h : Split (packet :: rest) first front back)
    (hfirst : first ≠ some packet.pointer) :
    ∃ front', front = packet :: front' ∧ Split rest first front' back := by
  cases front with
  | nil =>
    have hback : packet :: rest = back := h.queue
    rw [← hback] at h
    exact absurd h.first.symm hfirst
  | cons taken front' =>
    obtain ⟨rfl, hrest⟩ := List.cons.inj h.queue
    exact ⟨front', rfl, hrest, h.first⟩

theorem Split.putBack {front back : List WorldPacket} (h : Split rest first front back)
    (packet : WorldPacket) :
    Split (rest ++ [packet]) (some (first.getD packet.pointer)) front (back ++ [packet]) := by
  refine ⟨by rw [h.queue, List.append_assoc], ?_⟩
  rw [← h.first]
  cases back with
  | nil => rfl
  | cons head back => rfl

variable {s : WorldSession}

/-- Packets in front of the first one put back are those in front of its pointer. -/
theorem Split.front_eq {front back : List WorldPacket}
    (h : Split s.recvQueue s.firstDelayed front back)
    (hnodup : (s.recvQueue.map WorldPacket.pointer).Nodup) : s.front = front := by
  unfold WorldSession.front
  have hfirst := h.first
  cases hdelayed : s.firstDelayed with
  | none =>
    rw [hdelayed] at h
    rw [h.queue, h.back_nil, List.append_nil]
  | some pointer =>
    rw [hdelayed] at hfirst
    obtain ⟨head, hhead, rfl⟩ := Option.map_eq_some_iff.mp hfirst
    obtain ⟨tail, rfl⟩ : ∃ tail, back = head :: tail := List.head?_eq_some_iff.mp hhead
    rw [h.queue, List.map_append] at hnodup
    dsimp only
    rw [h.queue, List.takeWhile_append_of_pos, List.takeWhile_cons_of_neg, List.append_nil]
    · simp
    · intro packet hpacket
      have hne := (List.nodup_append.mp hnodup).2.2 packet.pointer
        (List.mem_map_of_mem hpacket) head.pointer (List.mem_map_of_mem List.mem_cons_self)
      exact decide_eq_true hne

/-! ## 3. The invariant of every run -/

/-- **The session is safe**: every packet that arrived is in the queue or has been deleted, once;
the received ones met their status and have been deleted; the Update has taken at most 101, each
once, and none of them is left to take. -/
structure Safe (rules : Rules) (s : WorldSession) : Prop where
  once : ((s.deleted ++ s.recvQueue).map WorldPacket.pointer).Perm (List.range s.arrived)
  received : (s.received.map Reception.packet).Sublist s.deleted
  met : ∀ r ∈ s.received, StatusMet rules r.login r.packet
  takenOnce : (s.taken.map WorldPacket.pointer).Nodup
  takenArrived : ∀ packet ∈ s.taken, packet.pointer < s.arrived
  bounded : s.taken.length ≤ maxProcessedPackets + 1
  counted : ∀ u, s.update = some u →
    s.taken.length = u.processedPackets ∧ u.processedPackets ≤ maxProcessedPackets
  split : ∃ back, Split s.recvQueue s.firstDelayed s.front back
  fresh : s.update ≠ none → ∀ packet ∈ s.front, packet.pointer ∉ s.taken.map WorldPacket.pointer
  absent : s.firstDelayed ≠ none → s.login.player = none

theorem Safe.nodup (h : Safe rules s) :
    ((s.deleted ++ s.recvQueue).map WorldPacket.pointer).Nodup :=
  h.once.nodup_iff.mpr List.nodup_range

theorem queue_nodup_of_once
    (h : ((s.deleted ++ s.recvQueue).map WorldPacket.pointer).Perm (List.range s.arrived)) :
    (s.recvQueue.map WorldPacket.pointer).Nodup := by
  have hall := h.nodup_iff.mpr List.nodup_range
  rw [List.map_append] at hall
  exact (List.nodup_append.mp hall).2.1

theorem Safe.queue_nodup (h : Safe rules s) :
    (s.recvQueue.map WorldPacket.pointer).Nodup := queue_nodup_of_once h.once

theorem Safe.arrived (h : Safe rules s) (hpacket : packet ∈ s.deleted ++ s.recvQueue) :
    packet.pointer < s.arrived :=
  List.mem_range.mp (h.once.mem_iff.mp (List.mem_map_of_mem hpacket))

/-- Without an Update under way everything is left to take. -/
theorem front_of_update (h : s.update = none) : s.front = s.recvQueue := by
  unfold WorldSession.front WorldSession.firstDelayed
  rw [h]
  rfl

theorem split_of_update (h : s.update = none) : Split s.recvQueue s.firstDelayed s.front [] := by
  rw [front_of_update h]
  unfold WorldSession.firstDelayed
  rw [h]
  exact Split.all s.recvQueue

/-- What changes is neither the packets nor the Update. -/
theorem Safe.of_same {s' : WorldSession} (h : Safe rules s) (hupdate : s'.update = none)
    (hqueue : s'.recvQueue = s.recvQueue) (hdeleted : s'.deleted = s.deleted)
    (harrived : s'.arrived = s.arrived) (hreceived : s'.received = s.received)
    (htaken : s'.taken = s.taken) : Safe rules s' where
  once := by rw [hqueue, hdeleted, harrived]; exact h.once
  received := by rw [hreceived, hdeleted]; exact h.received
  met := by rw [hreceived]; exact h.met
  takenOnce := by rw [htaken]; exact h.takenOnce
  takenArrived := by rw [htaken, harrived]; exact h.takenArrived
  bounded := by rw [htaken]; exact h.bounded
  counted := fun u hu => by rw [hupdate] at hu; cases hu
  split := ⟨[], split_of_update hupdate⟩
  fresh := fun hne => absurd hupdate hne
  absent := fun hne => by
    unfold WorldSession.firstDelayed at hne
    rw [hupdate] at hne
    exact absurd rfl hne

theorem new_safe (login : Login) : Safe rules (WorldSession.new login) where
  once := List.Perm.nil
  received := List.Sublist.slnil
  met := nofun
  takenOnce := List.nodup_nil
  takenArrived := nofun
  bounded := Nat.zero_le _
  counted := nofun
  split := ⟨[], Split.all []⟩
  fresh := fun hne => absurd rfl hne
  absent := fun hne => absurd rfl hne

/-- **A packet arrives** at the end of the queue, at any time. -/
theorem Split.arrive {front back : List WorldPacket} (h : Split queue first front back)
    (packet : WorldPacket) :
    if first = none then Split (queue ++ [packet]) first (front ++ [packet]) []
    else Split (queue ++ [packet]) first front (back ++ [packet]) := by
  cases first with
  | none =>
    rw [if_pos rfl]
    rw [h.queue, h.back_nil, List.append_nil]
    exact Split.all _
  | some pointer =>
    rw [if_neg (Option.some_ne_none _)]
    refine ⟨by rw [h.queue, List.append_assoc], ?_⟩
    obtain ⟨head, hhead, hpointer⟩ := Option.map_eq_some_iff.mp h.first
    obtain ⟨tail, rfl⟩ := List.head?_eq_some_iff.mp hhead
    exact congrArg some hpointer

theorem Safe.queuePacket (h : Safe rules s) (opcode : ℕ) :
    Safe rules (step rules s (.queuePacket opcode)) := by
  unfold WorldSession.step
  dsimp only
  split
  · set packet : WorldPacket := ⟨s.arrived, opcode⟩ with hpacket
    set s' : WorldSession := { s with
      recvQueue := s.recvQueue ++ [packet], arrived := s.arrived + 1 } with hs'
    have honce : ((s'.deleted ++ s'.recvQueue).map WorldPacket.pointer).Perm
        (List.range s'.arrived) := by
      change ((s.deleted ++ (s.recvQueue ++ [packet])).map WorldPacket.pointer).Perm
        (List.range (s.arrived + 1))
      rw [← List.append_assoc, List.map_append, List.range_succ]
      exact h.once.append_right _
    have hnodup := queue_nodup_of_once honce
    obtain ⟨back, hsplit⟩ := h.split
    have harrive := hsplit.arrive packet
    have hfront : ∃ back', Split s'.recvQueue s'.firstDelayed s'.front back' ∧
        ∀ q ∈ s'.front, q ∈ s.front ∨ q = packet := by
      split at harrive
      · have hsplit' : Split s'.recvQueue s'.firstDelayed (s.front ++ [packet]) [] := harrive
        rw [hsplit'.front_eq hnodup]
        exact ⟨[], hsplit', fun q hq => (List.mem_append.mp hq).imp_right List.mem_singleton.mp⟩
      · have hsplit' : Split s'.recvQueue s'.firstDelayed s.front (back ++ [packet]) := harrive
        rw [hsplit'.front_eq hnodup]
        exact ⟨_, hsplit', fun q hq => Or.inl hq⟩
    obtain ⟨back', hsplit', hmem⟩ := hfront
    refine ⟨honce, h.received, h.met, h.takenOnce,
      fun q hq => Nat.lt_succ_of_lt (h.takenArrived q hq), h.bounded, h.counted, ⟨back', hsplit'⟩,
      fun hne q hq htaken => ?_, h.absent⟩
    rcases hmem q hq with hold | rfl
    · exact h.fresh hne q hold htaken
    · obtain ⟨other, hother, heq⟩ := List.mem_map.mp htaken
      exact absurd (h.takenArrived other hother) (heq ▸ Nat.lt_irrefl _)
  · exact h

/-! ### A turn -/

/-- What follows the packets left to take, after a packet. -/
def backAfter (back : List WorldPacket) (packet : WorldPacket) (verdict : Verdict) :
    List WorldPacket :=
  if verdict = .delayed then back ++ [packet] else back

def firstAfter (first : Option ℕ) (packet : WorldPacket) (verdict : Verdict) : Option ℕ :=
  if verdict = .delayed then some (first.getD packet.pointer) else first

namespace WorldSession

/-- An Update goes on after a packet, or that was its last one. -/
theorem Update.after_cases (u : Update) (packet : WorldPacket) (verdict : Verdict) :
    Update.after u packet verdict = none ∧ maxProcessedPackets < u.processedPackets + 1 ∨
      ∃ u', Update.after u packet verdict = some u' ∧
        u'.firstDelayedPacket = firstAfter u.firstDelayedPacket packet verdict ∧
          u'.processedPackets = u.processedPackets + 1 ∧
            u.processedPackets + 1 ≤ maxProcessedPackets := by
  by_cases hlast : maxProcessedPackets < u.processedPackets + 1
  · exact Or.inl ⟨if_pos hlast, hlast⟩
  · exact Or.inr ⟨_, if_neg hlast, rfl, rfl, Nat.le_of_not_lt hlast⟩

theorem settle_once (s : WorldSession) (packet : WorldPacket) (rest : List WorldPacket)
    (allowed : Bool) (effect : Effect) (verdict : Verdict) :
    ((s.settle rules packet rest allowed effect verdict).deleted ++
      (s.settle rules packet rest allowed effect verdict).recvQueue).Perm
        (s.deleted ++ packet :: rest) := by
  have hdeleted : (s.deleted ++ [packet] ++ rest).Perm (s.deleted ++ packet :: rest) := by
    rw [List.append_assoc]
    exact List.Perm.refl _
  cases verdict with
  | delayed => exact List.Perm.append_left _ List.perm_append_comm
  | met => exact hdeleted
  | kicked => exact hdeleted
  | unknown => exact hdeleted
  | refused => exact hdeleted

theorem settle_received (s : WorldSession) (packet : WorldPacket) (rest : List WorldPacket)
    (allowed : Bool) (effect : Effect) (verdict : Verdict)
    (h : (s.received.map Reception.packet).Sublist s.deleted) :
    ((s.settle rules packet rest allowed effect verdict).received.map Reception.packet).Sublist
      (s.settle rules packet rest allowed effect verdict).deleted := by
  have hdeleted : (s.received.map Reception.packet).Sublist (s.deleted ++ [packet]) :=
    h.trans (List.sublist_append_left _ _)
  cases verdict with
  | delayed => exact h
  | met =>
    change ((s.received ++ [_]).map Reception.packet).Sublist (s.deleted ++ [packet])
    rw [List.map_append]
    exact h.append (List.Sublist.refl _)
  | kicked => exact hdeleted
  | unknown => exact hdeleted
  | refused => exact hdeleted

/-- A handler receives a packet only where the checks are met. -/
theorem settle_receives {s : WorldSession} {allowed : Bool} {effect : Effect} {verdict : Verdict}
    {r : Reception} (h : r ∈ (s.settle rules packet rest allowed effect verdict).received) :
    r ∈ s.received ∨
      verdict = .met ∧ r = ⟨packet, loginFor rules s.login packet, allowed⟩ := by
  cases verdict with
  | met =>
    exact (List.mem_append.mp h).imp_right fun hlast => ⟨rfl, List.mem_singleton.mp hlast⟩
  | delayed => exact Or.inl h
  | kicked => exact Or.inl h
  | unknown => exact Or.inl h
  | refused => exact Or.inl h

/-- Nothing arrives in a turn. -/
theorem settle_arrived (s : WorldSession) (packet : WorldPacket) (rest : List WorldPacket)
    (allowed : Bool) (effect : Effect) (verdict : Verdict) :
    (s.settle rules packet rest allowed effect verdict).arrived = s.arrived := by
  cases verdict <;> rfl

theorem settle_split {front back : List WorldPacket} (h : Split rest first front back)
    (allowed : Bool) (effect : Effect) (verdict : Verdict) :
    Split (s.settle rules packet rest allowed effect verdict).recvQueue
      (firstAfter first packet verdict) front (backAfter back packet verdict) := by
  cases verdict with
  | delayed => exact h.putBack packet
  | met => exact h
  | kicked => exact h
  | unknown => exact h
  | refused => exact h

/-- Nothing in a turn brings a player. -/
theorem settle_absent (h : s.login.player = none) (packet : WorldPacket) (rest : List WorldPacket)
    (allowed : Bool) (effect : Effect) (verdict : Verdict) :
    (s.settle rules packet rest allowed effect verdict).login.player = none := by
  cases verdict with
  | delayed => exact h
  | met =>
    have hlogin : (loginFor rules s.login packet).player = none := by
      unfold loginFor
      split
      · exact h
      · exact h
    change (if allowed = true then effect.apply (loginFor rules s.login packet)
      else loginFor rules s.login packet).player = none
    split
    · cases effect with
      | stay => exact hlogin
      | logoutPlayer => rfl
      | leaveWorld => exact congrArg (Option.map _) hlogin
      | enterWorld => exact congrArg (Option.map _) hlogin
    · exact hlogin
  | kicked => exact h
  | unknown => exact h
  | refused => exact h

theorem next_eq_some {u : Update} (h : s.next rules u = some (packet, rest)) :
    s.recvQueue = packet :: rest ∧ u.firstDelayedPacket ≠ some packet.pointer := by
  unfold WorldSession.next at h
  cases hqueue : s.recvQueue with
  | nil => rw [hqueue] at h; cases h
  | cons head tail =>
    rw [hqueue] at h
    dsimp only at h
    split at h
    · rename_i hcond
      cases h
      exact ⟨rfl, hcond.2.1⟩
    · cases h

/-- The session after a packet. -/
def afterPacket (rules : Rules) (s : WorldSession) (u : Update) (packet : WorldPacket)
    (rest : List WorldPacket) (allowed : Bool) (effect : Effect) : WorldSession :=
  { s.settle rules packet rest allowed effect (s.verdict rules u packet) with
    throttling := (evaluateOpcode rules s.throttling packet.opcode u.currentTime).2
    taken := s.taken ++ [packet]
    update := Update.after u packet (s.verdict rules u packet) }

theorem turn_cases (rules : Rules) (s : WorldSession) (u : Update) (allowed : Bool)
    (effect : Effect) :
    s.next rules u = none ∧ s.turn rules u allowed effect = { s with update := none } ∨
      ∃ packet rest, s.next rules u = some (packet, rest) ∧
        s.turn rules u allowed effect = s.afterPacket rules u packet rest allowed effect := by
  unfold WorldSession.turn WorldSession.afterPacket
  cases s.next rules u with
  | none => exact Or.inl ⟨rfl, rfl⟩
  | some both => exact Or.inr ⟨both.1, both.2, rfl, rfl⟩

end WorldSession

variable {u : Update}

/-- What is left to take after a packet, and what follows: all is left when the Update has ended. -/
theorem Safe.afterPacket_split (h : Safe rules s) (hu : s.update = some u)
    (hnext : s.next rules u = some (packet, rest)) (allowed : Bool) (effect : Effect) :
    ∃ front back, s.front = packet :: front ∧
      Split s.recvQueue s.firstDelayed (packet :: front) back ∧
      Split (s.afterPacket rules u packet rest allowed effect).recvQueue
        (firstAfter s.firstDelayed packet (s.verdict rules u packet)) front
        (backAfter back packet (s.verdict rules u packet)) ∧
      ((s.afterPacket rules u packet rest allowed effect).update ≠ none →
        (s.afterPacket rules u packet rest allowed effect).firstDelayed =
          firstAfter s.firstDelayed packet (s.verdict rules u packet)) := by
  obtain ⟨hqueue, hfirst⟩ := next_eq_some hnext
  have hdelayed : s.firstDelayed = u.firstDelayedPacket := by
    unfold WorldSession.firstDelayed
    rw [hu]
    rfl
  obtain ⟨back, hsplit⟩ := h.split
  have htake := hsplit
  rw [hqueue, hdelayed] at htake
  obtain ⟨front, hfront, hrest⟩ := htake.take hfirst
  refine ⟨front, back, hfront, hfront ▸ hsplit, ?_, fun hne => ?_⟩
  · rw [hdelayed]
    exact settle_split hrest allowed effect (s.verdict rules u packet)
  · change (Update.after u packet (s.verdict rules u packet)) ≠ none at hne
    change (Update.after u packet (s.verdict rules u packet)).bind Update.firstDelayedPacket = _
    rcases Update.after_cases u packet (s.verdict rules u packet) with
      ⟨hlast, -⟩ | ⟨u', hafter, hu', -⟩
    · exact absurd hlast hne
    · rw [hafter, hdelayed]
      exact hu'

/-- What is left to take has no pointer twice. -/
theorem Safe.not_mem_front (h : Safe rules s) {front : List WorldPacket}
    (hfront : s.front = packet :: front) : packet.pointer ∉ front.map WorldPacket.pointer := by
  obtain ⟨back, hsplit⟩ := h.split
  have hall := h.queue_nodup
  rw [hsplit.queue, hfront, List.cons_append, List.map_cons, List.map_append] at hall
  exact fun hmem => (List.nodup_cons.mp hall).1 (List.mem_append_left _ hmem)

/-- **A packet is taken.** -/
theorem Safe.afterPacket (h : Safe rules s) (hu : s.update = some u)
    (hnext : s.next rules u = some (packet, rest)) (allowed : Bool) (effect : Effect) :
    Safe rules (s.afterPacket rules u packet rest allowed effect) := by
  obtain ⟨hqueue, hfirst⟩ := next_eq_some hnext
  obtain ⟨front, back, hfront, -, hsplit, hdelayed⟩ :=
    h.afterPacket_split hu hnext allowed effect
  obtain ⟨hcount, hprocessed⟩ := h.counted u hu
  have hne : s.update ≠ none := by rw [hu]; exact Option.some_ne_none u
  have hself : packet.pointer ∉ s.taken.map WorldPacket.pointer :=
    h.fresh hne packet (hfront ▸ List.mem_cons_self)
  have hmem : packet ∈ s.deleted ++ s.recvQueue := by
    rw [hqueue]
    exact List.mem_append_right _ List.mem_cons_self
  have honce : (((s.afterPacket rules u packet rest allowed effect).deleted ++
      (s.afterPacket rules u packet rest allowed effect).recvQueue).map WorldPacket.pointer).Perm
        (List.range s.arrived) := by
    have hperm := @settle_once rules s packet rest allowed effect (s.verdict rules u packet)
    rw [← hqueue] at hperm
    exact (hperm.map _).trans h.once
  have harrived : (s.afterPacket rules u packet rest allowed effect).arrived = s.arrived := by
    exact settle_arrived s packet rest allowed effect (s.verdict rules u packet)
  have hnodup := queue_nodup_of_once (harrived.symm ▸ honce)
  refine ⟨harrived.symm ▸ honce,
    settle_received s packet rest allowed effect (s.verdict rules u packet) h.received,
    ?_, ?_, ?_, ?_, ?_, ?_, ?_, ?_⟩
  · intro r hr
    rcases settle_receives hr with hold | ⟨hmet, rfl⟩
    · exact h.met r hold
    · exact dispatch_met (verdict_met hmet)
  · change ((s.taken ++ [packet]).map WorldPacket.pointer).Nodup
    rw [List.map_append]
    refine List.nodup_append.mpr ⟨h.takenOnce, List.nodup_singleton _, fun x hx y hy => ?_⟩
    rw [List.mem_singleton.mp hy]
    exact fun heq => hself (heq ▸ hx)
  · rw [harrived]
    intro q hq
    rcases List.mem_append.mp hq with hold | hlast
    · exact h.takenArrived q hold
    · rw [List.mem_singleton.mp hlast]
      exact h.arrived hmem
  · change (s.taken ++ [packet]).length ≤ maxProcessedPackets + 1
    rw [List.length_append, hcount]
    exact Nat.succ_le_succ hprocessed
  · intro u' hu'
    rcases Update.after_cases u packet (s.verdict rules u packet) with
      ⟨hlast, -⟩ | ⟨u'', hafter, -, hcounted, hle⟩
    · exact absurd (hu'.symm.trans hlast) (Option.some_ne_none _)
    · obtain rfl := Option.some.inj (hu'.symm.trans hafter)
      refine ⟨?_, hcounted ▸ hle⟩
      change (s.taken ++ [packet]).length = u'.processedPackets
      rw [List.length_append, hcount, hcounted]
      rfl
  · by_cases hend : (s.afterPacket rules u packet rest allowed effect).update = none
    · exact ⟨[], split_of_update hend⟩
    · rw [← hdelayed hend] at hsplit
      rw [hsplit.front_eq hnodup]
      exact ⟨_, hsplit⟩
  · intro hend q hq
    rw [← hdelayed hend] at hsplit
    rw [hsplit.front_eq hnodup] at hq
    have hold : q ∈ s.front := hfront ▸ List.mem_cons_of_mem _ hq
    change q.pointer ∉ (s.taken ++ [packet]).map WorldPacket.pointer
    rw [List.map_append, List.mem_append]
    rintro (htaken | hlast)
    · exact h.fresh hne q hold htaken
    · have hpointer : q.pointer = packet.pointer := List.mem_singleton.mp hlast
      exact h.not_mem_front hfront (hpointer ▸ List.mem_map_of_mem hq)
  · intro hsome
    have hend : (s.afterPacket rules u packet rest allowed effect).update ≠ none := by
      intro hnone
      unfold WorldSession.firstDelayed at hsome
      rw [hnone] at hsome
      exact hsome rfl
    refine settle_absent ?_ packet rest allowed effect (s.verdict rules u packet)
    rw [hdelayed hend] at hsome
    unfold firstAfter at hsome
    split at hsome
    · rename_i hverdict
      exact (dispatch_delayed (verdict_delayed hverdict)).2
    · exact h.absent hsome

theorem Safe.turn (h : Safe rules s) (hu : s.update = some u) (allowed : Bool) (effect : Effect) :
    Safe rules (s.turn rules u allowed effect) := by
  rcases turn_cases rules s u allowed effect with ⟨-, hturn⟩ | ⟨packet, rest, hnext, hturn⟩
  · rw [hturn]
    exact h.of_same rfl rfl rfl rfl rfl rfl
  · rw [hturn]
    exact h.afterPacket hu hnext allowed effect

/-- **Every step keeps a session safe.** -/
theorem Safe.step (h : Safe rules s) (op : Op) : Safe rules (step rules s op) := by
  cases op with
  | queuePacket opcode => exact h.queuePacket opcode
  | beginUpdate filter currentTime =>
    unfold WorldSession.step
    dsimp only
    split
    · rename_i hcond
      exact ⟨h.once, h.received, h.met, List.nodup_nil, nofun, Nat.zero_le _,
        fun u hu => Option.some.inj hu ▸ ⟨rfl, Nat.zero_le _⟩, ⟨[], Split.all s.recvQueue⟩,
        fun _ _ _ => List.not_mem_nil, fun hne => absurd rfl hne⟩
    · exact h
  | turn allowed effect =>
    unfold WorldSession.step
    cases hu : s.update with
    | none => exact h
    | some u => exact h.turn hu allowed effect
  | outside login =>
    unfold WorldSession.step
    dsimp only
    split
    · rename_i hupdate
      exact h.of_same hupdate rfl rfl rfl rfl rfl
    · exact h
  | destroy =>
    unfold WorldSession.step
    dsimp only
    split
    · rename_i hupdate
      set s' : WorldSession := { s with
        alive := false, recvQueue := [], deleted := s.deleted ++ s.recvQueue } with hs'
      have hupdate' : s'.update = none := hupdate
      refine ⟨?_, h.received.trans (List.sublist_append_left _ _), h.met, h.takenOnce,
        h.takenArrived, h.bounded, h.counted, ⟨[], split_of_update hupdate'⟩,
        fun hne => absurd hupdate' hne, h.absent⟩
      rw [List.append_nil]
      exact h.once
    · exact h

/-! ## 4. Order -/

/-- The packets that wait for their player, in their places. -/
def waiting (rules : Rules) (packets : List WorldPacket) : List ℕ :=
  (packets.filter (waits rules)).map WorldPacket.pointer

/-- None of the packets waits for its player. -/
def Calm (rules : Rules) (packets : List WorldPacket) : Prop :=
  ∀ packet ∈ packets, waits rules packet = false

instance (packets : List WorldPacket) : Decidable (Calm rules packets) :=
  inferInstanceAs (Decidable (∀ packet ∈ packets, _))

theorem waiting_append (packets packets' : List WorldPacket) :
    waiting rules (packets ++ packets') = waiting rules packets ++ waiting rules packets' := by
  unfold waiting
  rw [List.filter_append, List.map_append]

theorem waiting_of_waits (h : waits rules packet = true) :
    waiting rules [packet] = [packet.pointer] := by
  unfold waiting
  rw [List.filter_cons_of_pos h]
  rfl

theorem Calm.waiting {packets : List WorldPacket} (h : Calm rules packets) :
    waiting rules packets = [] := by
  unfold Sessions.waiting
  rw [List.filter_eq_nil_iff.mpr fun packet hpacket => Bool.eq_false_iff.mp (h packet hpacket)]
  rfl

theorem calm_singleton (h : waits rules packet = false) : Calm rules [packet] := by
  intro other hother
  rw [List.mem_singleton.mp hother]
  exact h

namespace WorldSession

/-- What follows the packets left to take. -/
def back (s : WorldSession) : List WorldPacket := s.recvQueue.drop s.front.length

/-- The waiting packets in the order in which their turns come: those received, those put back,
and those left to take. -/
def order (rules : Rules) (s : WorldSession) : List ℕ :=
  waiting rules (s.received.map Reception.packet) ++ waiting rules s.back ++
    waiting rules s.front

/-- The condition on a turn: a packet that was put back is put back again or received, and the
last turn of an Update that has put one back leaves none that waits before it. -/
def TurnKeeps (rules : Rules) (s : WorldSession) (u : Update) :
    Option (WorldPacket × List WorldPacket) → Prop
  | none => s.firstDelayed ≠ none → Calm rules s.front
  | some (packet, _) =>
    (packet ∈ s.putBack →
      s.verdict rules u packet = .delayed ∨ s.verdict rules u packet = .met) ∧
      (maxProcessedPackets < u.processedPackets + 1 →
        firstAfter s.firstDelayed packet (s.verdict rules u packet) ≠ none →
          Calm rules s.front.tail)

instance (s : WorldSession) (u : Update) : ∀ next, Decidable (TurnKeeps rules s u next)
  | none => inferInstanceAs (Decidable (_ → _))
  | some (_, _) => inferInstanceAs (Decidable (_ ∧ _))

/-- **The condition on a step**: `TurnKeeps`, and while an Update has put a packet back and others
that wait are left, none that waits arrives. -/
def Keeps (rules : Rules) (s : WorldSession) : Op → Prop
  | .queuePacket opcode =>
    s.firstDelayed ≠ none → waits rules ⟨s.arrived, opcode⟩ = true → Calm rules s.front
  | .turn _ _ => ∀ u ∈ s.update, TurnKeeps rules s u (s.next rules u)
  | _ => True

instance (s : WorldSession) : ∀ op, Decidable (Keeps rules s op)
  | .queuePacket _ => inferInstanceAs (Decidable (_ → _ → _))
  | .turn _ _ =>
    inferInstanceAs (Decidable (∀ u ∈ s.update, TurnKeeps rules s u (s.next rules u)))
  | .beginUpdate _ _ => isTrue trivial
  | .outside _ => isTrue trivial
  | .destroy => isTrue trivial

end WorldSession

theorem Split.back_eq {back : List WorldPacket} (h : Split s.recvQueue first s.front back) :
    s.back = back := by
  unfold WorldSession.back
  rw [h.queue]
  exact List.drop_left

/-- When an Update ends, its packets are in order if no waiting one is left. -/
theorem Split.waiting_all {front back : List WorldPacket} (h : Split queue first front back)
    (hcalm : first ≠ none → Calm rules front) :
    waiting rules queue = waiting rules back ++ waiting rules front := by
  rw [h.queue, waiting_append]
  cases first with
  | none =>
    rw [h.back_nil]
    exact List.append_nil _
  | some pointer =>
    rw [(hcalm (Option.some_ne_none _)).waiting]
    exact (List.append_nil _).symm

/-- **The packets that wait are in order**, and none that was put back is lost. -/
structure Ordered (rules : Rules) (s : WorldSession) : Prop where
  sorted : (s.order rules).Pairwise (· < ·)
  kept : s.alive = true → ∀ packet ∈ s.putBack,
    packet ∈ s.recvQueue ∨ packet ∈ s.received.map Reception.packet

theorem order_of_split {back : List WorldPacket}
    (h : Split s.recvQueue s.firstDelayed s.front back) :
    s.order rules = waiting rules (s.received.map Reception.packet) ++ waiting rules back ++
      waiting rules s.front := by
  unfold WorldSession.order
  rw [h.back_eq]

/-- Between Updates the waiting packets of the queue follow the received ones. -/
theorem order_of_update (h : s.update = none) :
    s.order rules = waiting rules (s.received.map Reception.packet) ++
      waiting rules s.recvQueue := by
  rw [order_of_split (split_of_update h), front_of_update h]
  exact congrArg (· ++ _) (List.append_nil _)

theorem Safe.order_lt (h : Safe rules s) : ∀ pointer ∈ s.order rules, pointer < s.arrived := by
  have hmem : ∀ packets : List WorldPacket,
      (∀ packet ∈ packets, packet ∈ s.deleted ++ s.recvQueue) →
      ∀ pointer ∈ waiting rules packets, pointer < s.arrived := by
    intro packets hpackets pointer hpointer
    obtain ⟨packet, hpacket, rfl⟩ := List.mem_map.mp hpointer
    exact h.arrived (hpackets packet (List.mem_filter.mp hpacket).1)
  obtain ⟨back, hsplit⟩ := h.split
  rw [order_of_split hsplit]
  intro pointer hpointer
  rcases List.mem_append.mp hpointer with hpointer | hpointer
  · rcases List.mem_append.mp hpointer with hpointer | hpointer
    · exact hmem _ (fun packet hpacket => List.mem_append_left _ (h.received.subset hpacket))
        pointer hpointer
    · refine hmem _ (fun packet hpacket => List.mem_append_right _ ?_) pointer hpointer
      rw [hsplit.queue]
      exact List.mem_append_right _ hpacket
  · refine hmem _ (fun packet hpacket => List.mem_append_right _ ?_) pointer hpointer
    rw [hsplit.queue]
    exact List.mem_append_left _ hpacket

theorem Ordered.of_same {s' : WorldSession} (h : Ordered rules s) (hupdate : s.firstDelayed = none)
    (hupdate' : s'.firstDelayed = none) (hqueue : s'.recvQueue = s.recvQueue)
    (hreceived : s'.received = s.received) (hputBack : s'.putBack = s.putBack)
    (halive : s'.alive = s.alive) : Ordered rules s' := by
  have hall : ∀ t : WorldSession, t.firstDelayed = none →
      t.order rules = waiting rules (t.received.map Reception.packet) ++
        waiting rules t.recvQueue := by
    intro t ht
    have hfront : t.front = t.recvQueue := by
      unfold WorldSession.front
      rw [ht]
    have hsplit : Split t.recvQueue t.firstDelayed t.front [] := by
      rw [hfront, ht]
      exact Split.all _
    rw [order_of_split hsplit, hfront]
    exact congrArg (· ++ _) (List.append_nil _)
  refine ⟨?_, ?_⟩
  · rw [hall s' hupdate', hqueue, hreceived, ← hall s hupdate]
    exact h.sorted
  · rw [hqueue, hreceived, hputBack, halive]
    exact h.kept

/-- **A packet arrives** behind all that wait. -/
theorem Ordered.queuePacket (h : Ordered rules s) (hsafe : Safe rules s) {opcode : ℕ}
    (hkeeps : Keeps rules s (.queuePacket opcode)) :
    Ordered rules (step rules s (.queuePacket opcode)) := by
  have hsafe' := hsafe.queuePacket opcode
  unfold WorldSession.step at hsafe' ⊢
  dsimp only at hsafe' ⊢
  split
  · rename_i halive
    rw [if_pos halive] at hsafe'
    set packet : WorldPacket := ⟨s.arrived, opcode⟩ with hpacket
    set s' : WorldSession := { s with
      recvQueue := s.recvQueue ++ [packet], arrived := s.arrived + 1 } with hs'
    obtain ⟨back, hsplit⟩ := hsafe.split
    have harrive := hsplit.arrive packet
    have horder : s'.order rules = s.order rules ++ waiting rules [packet] := by
      rw [order_of_split hsplit]
      split at harrive
      · rename_i hfirst
        rw [hfirst] at hsplit
        have hsplit' : Split s'.recvQueue s'.firstDelayed (s.front ++ [packet]) [] := harrive
        rw [← hsplit'.front_eq hsafe'.queue_nodup] at hsplit'
        rw [order_of_split hsplit', hsplit.back_nil]
        change waiting rules (s.received.map Reception.packet) ++ [] ++ waiting rules s'.front =
          waiting rules (s.received.map Reception.packet) ++ [] ++ waiting rules s.front ++ _
        rw [show s'.front = s.front ++ [packet] from harrive.front_eq hsafe'.queue_nodup,
          waiting_append, List.append_assoc, List.append_assoc, List.append_assoc]
      · rename_i hfirst
        have hsplit' : Split s'.recvQueue s'.firstDelayed s.front (back ++ [packet]) := harrive
        have hfront := hsplit'.front_eq hsafe'.queue_nodup
        rw [← hfront] at hsplit'
        rw [order_of_split hsplit', hfront, waiting_append]
        cases hwaits : waits rules packet with
        | false =>
          rw [(calm_singleton hwaits).waiting, List.append_nil, List.append_nil]
        | true =>
          rw [(hkeeps hfirst hwaits).waiting, List.append_nil, List.append_nil, List.append_assoc]
    refine ⟨?_, fun _ p hp => (h.kept halive p hp).imp_left (List.mem_append_left _)⟩
    rw [horder]
    refine List.pairwise_append.mpr ⟨h.sorted, ?_, fun a ha b hb => ?_⟩
    · cases hwaits : waits rules packet with
      | true =>
        rw [waiting_of_waits hwaits]
        exact List.pairwise_singleton _ _
      | false =>
        rw [(calm_singleton hwaits).waiting]
        exact List.Pairwise.nil
    · obtain ⟨q, hq, rfl⟩ := List.mem_map.mp hb
      rw [List.mem_singleton.mp (List.mem_filter.mp hq).1]
      exact hsafe.order_lt a ha
  · exact h

/-- **A packet is taken**: the order in which turns come stays, with the packet or without. -/
theorem afterPacket_order (h : Safe rules s) (hu : s.update = some u)
    (hnext : s.next rules u = some (packet, rest)) (allowed : Bool) (effect : Effect)
    (hkeeps : TurnKeeps rules s u (s.next rules u)) :
    ((s.afterPacket rules u packet rest allowed effect).order rules).Sublist (s.order rules) := by
  rw [hnext] at hkeeps
  have hsafe' := h.afterPacket hu hnext allowed effect
  obtain ⟨front, back, hfront, hsplit, hsplit', hdelayed⟩ :=
    h.afterPacket_split hu hnext allowed effect
  -- what is received, put back and left, whether the Update goes on or has ended
  have horder : (s.afterPacket rules u packet rest allowed effect).order rules =
      waiting rules ((s.afterPacket rules u packet rest allowed effect).received.map
        Reception.packet) ++ waiting rules (backAfter back packet (s.verdict rules u packet)) ++
          waiting rules front := by
    rcases Update.after_cases u packet (s.verdict rules u packet) with
      ⟨hlast, hcount⟩ | ⟨u', hafter, -⟩
    · rw [order_of_update hlast, List.append_assoc]
      refine congrArg _ (hsplit'.waiting_all fun hsome => ?_)
      have hcalm := hkeeps.2 hcount hsome
      rw [hfront] at hcalm
      exact hcalm
    · have hend : (s.afterPacket rules u packet rest allowed effect).update ≠ none :=
        hafter.trans_ne (Option.some_ne_none u')
      rw [← hdelayed hend] at hsplit'
      have hfront' := hsplit'.front_eq hsafe'.queue_nodup
      rw [← hfront'] at hsplit'
      rw [order_of_split hsplit', hfront']
  rw [hfront.symm] at hsplit
  rw [horder, order_of_split hsplit, hfront, ← List.singleton_append, waiting_append]
  change (waiting rules ((s.settle rules packet rest allowed effect
    (s.verdict rules u packet)).received.map Reception.packet) ++ _ ++ _).Sublist _
  have hdropped : ∀ received : List ℕ, (received ++ waiting rules back ++
      waiting rules front).Sublist (received ++ waiting rules back ++
        (waiting rules [packet] ++ waiting rules front)) := fun received =>
    List.Sublist.append_left (List.sublist_append_right _ _) _
  cases hverdict : s.verdict rules u packet with
  | delayed =>
    unfold backAfter
    rw [if_pos rfl, waiting_append, ← List.append_assoc, ← List.append_assoc]
    exact List.Sublist.refl _
  | met =>
    unfold backAfter
    rw [if_neg (nofun : Verdict.met ≠ .delayed)]
    have hreceived :
        (s.settle rules packet rest allowed effect .met).received.map Reception.packet =
          s.received.map Reception.packet ++ [packet] := List.map_append
    rw [hreceived, waiting_append]
    cases hwaits : waits rules packet with
    | false =>
      rw [(calm_singleton hwaits).waiting, List.append_nil]
      exact List.Sublist.refl _
    | true =>
      have hplayer := dispatch_met_waits (verdict_met hverdict) hwaits
      have hnone : s.firstDelayed = none := by
        by_contra hsome
        rw [h.absent hsome] at hplayer
        cases hplayer
      rw [hnone] at hsplit
      rw [hsplit.back_nil]
      change (_ ++ _ ++ [] ++ _).Sublist (_ ++ [] ++ _)
      rw [List.append_nil, List.append_nil, List.append_assoc]
  | kicked => exact hdropped _
  | unknown => exact hdropped _
  | refused => exact hdropped _

/-- A packet that was put back is still there, or has been received. -/
theorem afterPacket_kept
    (h : ∀ packet ∈ s.putBack, packet ∈ s.recvQueue ∨ packet ∈ s.received.map Reception.packet)
    (hnext : s.next rules u = some (packet, rest)) (allowed : Bool) (effect : Effect)
    (hkeeps : TurnKeeps rules s u (s.next rules u)) :
    ∀ q ∈ (s.afterPacket rules u packet rest allowed effect).putBack,
      q ∈ (s.afterPacket rules u packet rest allowed effect).recvQueue ∨
        q ∈ (s.afterPacket rules u packet rest allowed effect).received.map Reception.packet := by
  rw [hnext] at hkeeps
  obtain ⟨hqueue, -⟩ := next_eq_some hnext
  have hold : ∀ q ∈ s.putBack, q = packet ∨ q ∈ rest ∨ q ∈ s.received.map Reception.packet := by
    intro q hq
    rcases h q hq with hmem | hreceived
    · rw [hqueue] at hmem
      exact (List.mem_cons.mp hmem).imp_right Or.inl
    · exact Or.inr (Or.inr hreceived)
  have hself : ∀ q ∈ s.putBack, q = packet → s.verdict rules u packet = .delayed ∨
      s.verdict rules u packet = .met := fun q hq heq => hkeeps.1 (heq ▸ hq)
  change ∀ q ∈ (s.settle rules packet rest allowed effect (s.verdict rules u packet)).putBack,
    q ∈ (s.settle rules packet rest allowed effect (s.verdict rules u packet)).recvQueue ∨
      q ∈ (s.settle rules packet rest allowed effect
        (s.verdict rules u packet)).received.map Reception.packet
  have hgone : ∀ v : Verdict, s.verdict rules u packet = v → v ≠ .delayed → v ≠ .met →
      ∀ q ∈ s.putBack, q ∈ rest ∨ q ∈ s.received.map Reception.packet := by
    rintro v rfl hdelayed hmet q hq
    rcases hold q hq with heq | hother
    · exact absurd (hself q hq heq) (not_or.mpr ⟨hdelayed, hmet⟩)
    · exact hother
  cases hverdict : s.verdict rules u packet with
  | delayed =>
    intro q hq
    rcases List.mem_append.mp hq with hq | hq
    · rcases hold q hq with rfl | hrest | hreceived
      · exact Or.inl (List.mem_append_right _ List.mem_cons_self)
      · exact Or.inl (List.mem_append_left _ hrest)
      · exact Or.inr hreceived
    · exact Or.inl (List.mem_append_right _ hq)
  | met =>
    intro q hq
    have hreceived :
        (s.settle rules packet rest allowed effect .met).received.map Reception.packet =
          s.received.map Reception.packet ++ [packet] := List.map_append
    rw [hreceived]
    rcases hold q hq with rfl | hrest | hreceived
    · exact Or.inr (List.mem_append_right _ List.mem_cons_self)
    · exact Or.inl hrest
    · exact Or.inr (List.mem_append_left _ hreceived)
  | kicked => exact hgone _ hverdict nofun nofun
  | unknown => exact hgone _ hverdict nofun nofun
  | refused => exact hgone _ hverdict nofun nofun

/-- **A turn keeps the order.** -/
theorem Ordered.turn (h : Ordered rules s) (hsafe : Safe rules s) (hu : s.update = some u)
    (allowed : Bool) (effect : Effect) (hkeeps : TurnKeeps rules s u (s.next rules u)) :
    Ordered rules (s.turn rules u allowed effect) := by
  rcases turn_cases rules s u allowed effect with ⟨hnext, hturn⟩ | ⟨packet, rest, hnext, hturn⟩
  · rw [hturn]
    rw [hnext] at hkeeps
    refine ⟨?_, h.kept⟩
    obtain ⟨back, hsplit⟩ := hsafe.split
    have hall := hsplit.waiting_all hkeeps
    have hsorted := h.sorted
    rw [order_of_split hsplit, List.append_assoc, ← hall] at hsorted
    rw [order_of_update rfl]
    exact hsorted
  · rw [hturn]
    refine ⟨h.sorted.sublist (afterPacket_order hsafe hu hnext allowed effect hkeeps),
      fun halive => ?_⟩
    have hsame : (s.afterPacket rules u packet rest allowed effect).alive = s.alive := by
      change (s.settle rules packet rest allowed effect (s.verdict rules u packet)).alive = s.alive
      cases s.verdict rules u packet <;> rfl
    exact afterPacket_kept (h.kept (hsame ▸ halive)) hnext allowed effect hkeeps

theorem Ordered.step (h : Ordered rules s) (hsafe : Safe rules s) {op : Op}
    (hkeeps : Keeps rules s op) : Ordered rules (step rules s op) := by
  have hnone : s.update = none → s.firstDelayed = none := by
    intro hupdate
    unfold WorldSession.firstDelayed
    rw [hupdate]
    rfl
  cases op with
  | queuePacket opcode => exact h.queuePacket hsafe hkeeps
  | beginUpdate filter currentTime =>
    unfold WorldSession.step
    dsimp only
    split
    · rename_i hcond
      exact h.of_same (hnone hcond.1) rfl rfl rfl rfl rfl
    · exact h
  | turn allowed effect =>
    unfold WorldSession.step
    cases hu : s.update with
    | none => exact h
    | some u => exact h.turn hsafe hu allowed effect (hkeeps u hu)
  | outside login =>
    unfold WorldSession.step
    dsimp only
    split
    · rename_i hupdate
      exact h.of_same (hnone hupdate) (hnone hupdate) rfl rfl rfl rfl
    · exact h
  | destroy =>
    unfold WorldSession.step
    dsimp only
    split
    · rename_i hupdate
      set s' : WorldSession := { s with
        alive := false, recvQueue := [], deleted := s.deleted ++ s.recvQueue } with hs'
      have hupdate' : s'.update = none := hupdate
      refine ⟨?_, fun halive => absurd halive Bool.false_ne_true⟩
      have hsorted := h.sorted
      rw [order_of_update hupdate] at hsorted
      rw [order_of_update hupdate']
      exact hsorted.sublist (List.Sublist.append_left (List.nil_sublist _) _)
    · exact h

/-! ## 5. Every run -/

/-- **What holds of every session**: each packet that arrived is in the queue or was deleted, once;
those received were received once, are deleted, and had their status met; an Update takes at most
101 packets, none of them twice, and each of its turns takes one or is the last. -/
structure Dispatched (rules : Rules) (s : WorldSession) : Prop where
  once : ((s.deleted ++ s.recvQueue).map WorldPacket.pointer).Perm (List.range s.arrived)
  receivedOnce : (s.received.map Reception.packet).Nodup
  deleted : ∀ r ∈ s.received, r.packet ∈ s.deleted
  met : ∀ r ∈ s.received, StatusMet rules r.login r.packet
  takenOnce : s.taken.Nodup
  bounded : s.taken.length ≤ maxProcessedPackets + 1
  ends : s.update ≠ none → ∀ allowed effect,
    (step rules s (.turn allowed effect)).update = none ∨
      (step rules s (.turn allowed effect)).taken.length = s.taken.length + 1

/-- The packets that wait for their player are received in the order in which they arrived, before
all that still wait. -/
def InOrder (rules : Rules) (s : WorldSession) : Prop :=
  (waiting rules (s.received.map Reception.packet)).Pairwise (· < ·) ∧
    ∀ a ∈ waiting rules (s.received.map Reception.packet), ∀ b ∈ waiting rules s.recvQueue, a < b

instance (s : WorldSession) : Decidable (InOrder rules s) :=
  inferInstanceAs (Decidable (_ ∧ ∀ a ∈ waiting rules (s.received.map Reception.packet), _))

/-- As long as the session is there, every packet put back is in the queue or was received. -/
def NothingLost (s : WorldSession) : Prop :=
  s.alive = true → ∀ packet ∈ s.putBack,
    packet ∈ s.recvQueue ∨ packet ∈ s.received.map Reception.packet

theorem Safe.dispatched (h : Safe rules s) : Dispatched rules s := by
  have hdeleted : s.deleted.Nodup := by
    have hnodup := h.nodup
    rw [List.map_append] at hnodup
    exact (List.nodup_append.mp hnodup).1.of_map _
  refine ⟨h.once, h.received.nodup hdeleted,
    fun r hr => h.received.subset (List.mem_map_of_mem hr), h.met, h.takenOnce.of_map _, h.bounded,
    fun hne allowed effect => ?_⟩
  obtain ⟨u, hu⟩ := Option.ne_none_iff_exists'.mp hne
  unfold WorldSession.step
  rw [hu]
  dsimp only
  rcases turn_cases rules s u allowed effect with ⟨-, hturn⟩ | ⟨packet, rest, -, hturn⟩
  · rw [hturn]
    exact Or.inl rfl
  · rw [hturn]
    exact Or.inr List.length_append

theorem Ordered.inOrder (h : Ordered rules s) (hsafe : Safe rules s) : InOrder rules s := by
  obtain ⟨back, hsplit⟩ := hsafe.split
  have hsorted := h.sorted
  rw [order_of_split hsplit, List.append_assoc] at hsorted
  obtain ⟨hreceived, -, hless⟩ := List.pairwise_append.mp hsorted
  refine ⟨hreceived, fun a ha b hb => hless a ha b ?_⟩
  rw [hsplit.queue, waiting_append] at hb
  exact List.mem_append.mpr (List.mem_append.mp hb).symm

/-- **Packets in every run.**  They are dispatched once, with their status met, and boundedly many
at a time; and when every step meets the condition, those that wait for their player keep their
order and none is lost. -/
theorem dispatch_sound (rules : Rules) (login : Login) (ops : List Op) :
    let s := exec (step rules) (WorldSession.new login) ops
    Dispatched rules s ∧
      (Along (step rules) (Keeps rules) (WorldSession.new login) ops →
        InOrder rules s ∧ NothingLost s) := by
  have hstep : ∀ (s : WorldSession) (op : Op), Safe rules s → Safe rules (step rules s op) :=
    fun _ op h => h.step op
  have hsafe := exec_invariant_all hstep _ ops (new_safe login)
  refine ⟨hsafe.dispatched, fun halong => ?_⟩
  have hboth : ∀ (s : WorldSession) (op : Op), Safe rules s ∧ Ordered rules s → Keeps rules s op →
      Safe rules (step rules s op) ∧ Ordered rules (step rules s op) :=
    fun _ op h hkeeps => ⟨h.1.step op, h.2.step h.1 hkeeps⟩
  have hordered := (exec_invariant hboth ⟨new_safe login, List.Pairwise.nil, nofun⟩ halong).2
  exact ⟨hordered.inOrder hsafe, hordered.kept⟩

/-- Every opcode waits for a player in the world. -/
def loggedInRules : Rules := ⟨fun _ => ⟨.loggedIn, .threadUnsafe⟩, fun _ => 0, .log⟩

def noPlayer : Login := ⟨none, false, false, false, true⟩

def inWorld : Login := ⟨some true, false, false, false, true⟩

/-- An Update of the world with so many turns. -/
def worldUpdate (turns : ℕ) : List Op :=
  .beginUpdate .world 0 :: List.replicate turns (.turn true .stay)

theorem dispatch_sound_waiting :
    InOrder loggedInRules (exec (step loggedInRules) (WorldSession.new noPlayer)
      ([.queuePacket 1, .queuePacket 1] ++ worldUpdate 3 ++ .outside inWorld :: worldUpdate 2)) :=
  ((dispatch_sound loggedInRules noPlayer
    ([.queuePacket 1, .queuePacket 1] ++ worldUpdate 3 ++ .outside inWorld :: worldUpdate 2)).2
      (by decide +kernel)).1

/-- **102 packets wait**, an Update puts 101 of them back, and the last is received first; or a
packet arrives while two that wait are put back, and is received before the second. -/
theorem not_inOrder :
    ¬ InOrder loggedInRules (exec (step loggedInRules) (WorldSession.new noPlayer)
        (List.replicate 102 (.queuePacket 1) ++ worldUpdate 101 ++
          .outside inWorld :: worldUpdate 1)) ∧
      ¬ InOrder loggedInRules (exec (step loggedInRules) (WorldSession.new noPlayer)
        ([.queuePacket 1, .queuePacket 1] ++ worldUpdate 1 ++ .queuePacket 1 ::
          .turn true .stay :: .turn true .stay :: .outside inWorld :: worldUpdate 3)) := by
  constructor
  · decide +kernel
  · decide +kernel

end HungerGames.Sessions
