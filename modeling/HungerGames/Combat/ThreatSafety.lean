/-
# The containers of a threat manager

Whatever is done to a threat manager, each of its references is in one container, as its status
says, no two are for the same unit, and the current victim is online.  In between this does not
hold: a reference is made before its threat is added, and changes its status before the manager
hears of it.  So the lemmas are about what leaves a manager sound: a step that changes the threat of
one reference, and steps that change none.

Adding threat adds it up, wherever it is redirected: the owners get none.
-/
import HungerGames.Combat.Threat
import Mathlib.Algebra.BigOperators.Group.List.Basic
import Mathlib.Data.List.Nodup
import Mathlib.Tactic.Linarith

namespace HungerGames.Combat

variable {m m' m'' : ThreatManager} {u : Units} {ref other : RefId} {r r' : HostileReference}

namespace ThreatManager

/-! ## 1. Sound managers -/

/-- **What is to hold of a manager** between the operations. -/
structure Sound (m : ThreatManager) : Prop where
  /-- Online references are in the one container, once. -/
  online : ∀ ref, ref ∈ m.threatContainer ↔ ∃ r, m.refs ref = some r ∧ r.online = true
  nodup : m.threatContainer.Nodup
  /-- The others are in the other. -/
  offline : ∀ ref, ref ∈ m.threatOfflineContainer ↔ ∃ r, m.refs ref = some r ∧ r.online = false
  nodupOffline : m.threatOfflineContainer.Nodup
  unique : ∀ ref r ref' r', m.refs ref = some r → m.refs ref' = some r' →
    r.unitGuid = r'.unitGuid → ref = ref'
  victim : ∀ ref, m.currentVictim = some ref → ref ∈ m.threatContainer
  fresh : ∀ ref r, m.refs ref = some r → ref < m.nextRef

/-- All threat there is. -/
def totalThreat (m : ThreatManager) : ℚ :=
  ((m.threatContainer ++ m.threatOfflineContainer).map m.getThreat).sum

/-- **What an operation leaves** that adds some threat: a sound manager with the references there
were. -/
structure Grows (m m' : ThreatManager) (threat : ℚ) : Prop where
  sound : Sound m'
  total : m'.totalThreat = m.totalThreat + threat
  kept : ∀ ref r, m.refs ref = some r → ∃ r', m'.refs ref = some r' ∧ r'.unitGuid = r.unitGuid

theorem Grows.refl (h : Sound m) : Grows m m 0 :=
  ⟨h, (add_zero _).symm, fun _ r hr => ⟨r, hr, rfl⟩⟩

theorem Grows.trans {a b : ℚ} (h : Grows m m' a) (h' : Grows m' m'' b) : Grows m m'' (a + b) := by
  refine ⟨h'.sound, by rw [h'.total, h.total, add_assoc], fun ref r hr => ?_⟩
  obtain ⟨r', hr', hguid⟩ := h.kept ref r hr
  obtain ⟨r'', hr'', hguid'⟩ := h'.kept ref r' hr'
  exact ⟨r'', hr'', hguid'.trans hguid⟩

theorem Grows.trans_same {a : ℚ} (h : Grows m m' a) (h' : Grows m' m'' 0) : Grows m m'' a :=
  add_zero a ▸ h.trans h'

/-- Where nothing but the dirty flag is another. -/
theorem Grows.of_same (h : Sound m) (hrefs : m'.refs = m.refs) (hnext : m'.nextRef = m.nextRef)
    (honline : m'.threatContainer.Perm m.threatContainer)
    (hoffline : m'.threatOfflineContainer = m.threatOfflineContainer)
    (hvictim : ∀ ref, m'.currentVictim = some ref → ref ∈ m.threatContainer) : Grows m m' 0 where
  sound := by
    constructor
    case online => exact fun ref => honline.mem_iff.trans (by rw [hrefs]; exact h.online ref)
    case nodup => exact honline.nodup_iff.mpr h.nodup
    case offline => exact fun ref => by rw [hoffline, hrefs]; exact h.offline ref
    case nodupOffline => exact hoffline ▸ h.nodupOffline
    case unique => exact hrefs ▸ h.unique
    case victim => exact fun ref hvictim' => honline.mem_iff.mpr (hvictim ref hvictim')
    case fresh => exact fun ref r hr => hnext ▸ h.fresh ref r (hrefs ▸ hr)
  total := by
    have hthreat : m'.getThreat = m.getThreat := by
      funext ref
      unfold getThreat
      rw [hrefs]
    rw [totalThreat, totalThreat, hthreat, hoffline, add_zero]
    exact ((honline.append_right _).map _).sum_eq
  kept ref r hr := ⟨r, hrefs ▸ hr, rfl⟩

/-! ## 2. A reference changes -/

theorem refs_modifyRef_self (change : HostileReference → HostileReference) :
    (m.modifyRef ref change).refs ref = (m.refs ref).map change := if_pos rfl

theorem refs_modifyRef_ne (change : HostileReference → HostileReference) (h : other ≠ ref) :
    (m.modifyRef ref change).refs other = m.refs other := if_neg h

/-- What holds of the reference, and of the others. -/
theorem refs_modifyRef {change : HostileReference → HostileReference}
    (h : (m.modifyRef ref change).refs other = some r') :
    ∃ r, m.refs other = some r ∧ r' = if other = ref then change r else r := by
  by_cases hother : other = ref
  · rw [hother, refs_modifyRef_self] at h
    obtain ⟨r, hr, rfl⟩ := Option.map_eq_some_iff.mp h
    exact ⟨r, hother ▸ hr, (if_pos hother).symm⟩
  · rw [refs_modifyRef_ne change hother] at h
    exact ⟨r', h, (if_neg hother).symm⟩

variable {refs : List RefId}

/-- A sum where one of the numbers is another. -/
theorem sum_map_of_one {f g : RefId → ℚ} (hnodup : refs.Nodup) (href : ref ∈ refs)
    (hsame : ∀ other, other ≠ ref → g other = f other) :
    (refs.map g).sum = (refs.map f).sum + (g ref - f ref) := by
  have hperm := List.perm_cons_erase href
  have hrest : (refs.erase ref).map g = (refs.erase ref).map f :=
    List.map_congr_left fun other hother => hsame other fun heq =>
      List.Nodup.not_mem_erase hnodup (heq ▸ hother)
  rw [(hperm.map g).sum_eq, (hperm.map f).sum_eq, List.map_cons, List.map_cons, hrest,
    List.sum_cons, List.sum_cons]
  linarith

theorem Sound.nodup_both (h : Sound m) : (m.threatContainer ++ m.threatOfflineContainer).Nodup := by
  refine List.nodup_append.mpr ⟨h.nodup, h.nodupOffline, fun ref href ref' href' heq => ?_⟩
  obtain ⟨r, hr, honline⟩ := (h.online ref).mp href
  obtain ⟨r', hr', hoffline⟩ := (h.offline ref').mp href'
  rw [← heq, hr] at hr'
  rw [← Option.some.inj hr', honline] at hoffline
  exact Bool.noConfusion hoffline

theorem Sound.mem_both (h : Sound m) (hr : m.refs ref = some r) :
    ref ∈ m.threatContainer ++ m.threatOfflineContainer := by
  cases honline : r.online with
  | true => exact List.mem_append_left _ ((h.online ref).mpr ⟨r, hr, honline⟩)
  | false => exact List.mem_append_right _ ((h.offline ref).mpr ⟨r, hr, honline⟩)

theorem getThreat_of_some (hr : m.refs ref = some r) : m.getThreat ref = r.threat := by
  rw [getThreat, hr]
  rfl

section change

variable {change : HostileReference → HostileReference}

/-- A changed reference, for the same unit, and the others. -/
theorem kept_modifyRef (hr : m.refs ref = some r) (hguid : (change r).unitGuid = r.unitGuid)
    {r₀ : HostileReference} (hr₀ : m.refs other = some r₀) :
    ∃ r₁, (m.modifyRef ref change).refs other = some r₁ ∧ r₁.unitGuid = r₀.unitGuid := by
  by_cases hother : other = ref
  · subst hother
    obtain rfl := Option.some.inj (hr.symm.trans hr₀)
    exact ⟨change r, by rw [refs_modifyRef_self, hr]; rfl, hguid⟩
  · exact ⟨r₀, (refs_modifyRef_ne change hother).trans hr₀, rfl⟩

theorem unique_modifyRef (h : Sound m) (hr : m.refs ref = some r)
    (hguid : (change r).unitGuid = r.unitGuid) {ref₁ ref₂ : RefId} {r₁ r₂ : HostileReference}
    (hr₁ : (m.modifyRef ref change).refs ref₁ = some r₁)
    (hr₂ : (m.modifyRef ref change).refs ref₂ = some r₂) (heq : r₁.unitGuid = r₂.unitGuid) :
    ref₁ = ref₂ := by
  have hback : ∀ other r₁, (m.modifyRef ref change).refs other = some r₁ →
      ∃ r₀, m.refs other = some r₀ ∧ r₁.unitGuid = r₀.unitGuid := by
    intro other r₁ hr₁
    obtain ⟨r₀, hr₀, -⟩ := refs_modifyRef hr₁
    obtain ⟨r₁', hr₁', hsame⟩ := kept_modifyRef hr hguid hr₀
    obtain rfl := Option.some.inj (hr₁.symm.trans hr₁')
    exact ⟨r₀, hr₀, hsame⟩
  obtain ⟨r₁', hr₁', hguid₁⟩ := hback ref₁ r₁ hr₁
  obtain ⟨r₂', hr₂', hguid₂⟩ := hback ref₂ r₂ hr₂
  exact h.unique ref₁ r₁' ref₂ r₂' hr₁' hr₂' (hguid₁.symm.trans (heq.trans hguid₂))

/-- Which references have a status, when one is changed. -/
theorem status_modifyRef (hr : m.refs ref = some r) (status : Bool) :
    (∃ r₁, (m.modifyRef ref change).refs other = some r₁ ∧ r₁.online = status) ↔
      if other = ref then (change r).online = status
      else ∃ r₀, m.refs other = some r₀ ∧ r₀.online = status := by
  by_cases hother : other = ref
  · rw [if_pos hother, hother, refs_modifyRef_self, hr]
    exact ⟨fun ⟨r₁, hr₁, honline⟩ => Option.some.inj hr₁ ▸ honline, fun honline => ⟨_, rfl, honline⟩⟩
  · rw [if_neg hother, refs_modifyRef_ne change hother]

/-- **A reference changes**, and with its status the container that it is in. -/
theorem grows_modifyRef (h : Sound m) (hr : m.refs ref = some r)
    (hguid : (change r).unitGuid = r.unitGuid) (hrefs : m'.refs = (m.modifyRef ref change).refs)
    (hnext : m'.nextRef = m.nextRef)
    (honline : ∀ other, other ∈ m'.threatContainer ↔
      if other = ref then (change r).online = true else other ∈ m.threatContainer)
    (hnodup : m'.threatContainer.Nodup)
    (hoffline : ∀ other, other ∈ m'.threatOfflineContainer ↔
      if other = ref then (change r).online = false else other ∈ m.threatOfflineContainer)
    (hnodupOffline : m'.threatOfflineContainer.Nodup)
    (hvictim : ∀ victim, m'.currentVictim = some victim → victim ∈ m'.threatContainer) :
    Grows m m' ((change r).threat - r.threat) := by
  have hsound : Sound m' := by
    constructor
    case online =>
      intro other
      rw [honline, hrefs, status_modifyRef hr true, h.online other]
    case nodup => exact hnodup
    case offline =>
      intro other
      rw [hoffline, hrefs, status_modifyRef hr false, h.offline other]
    case nodupOffline => exact hnodupOffline
    case unique =>
      intro ref₁ r₁ ref₂ r₂ hr₁ hr₂
      rw [hrefs] at hr₁ hr₂
      exact unique_modifyRef h hr hguid hr₁ hr₂
    case victim => exact hvictim
    case fresh =>
      intro other r₁ hr₁
      rw [hrefs] at hr₁
      obtain ⟨r₀, hr₀, -⟩ := refs_modifyRef hr₁
      exact hnext ▸ h.fresh other r₀ hr₀
  refine ⟨hsound, ?_, fun other r₀ hr₀ => hrefs ▸ kept_modifyRef hr hguid hr₀⟩
  have hsame : ∀ other, other ≠ ref → m'.getThreat other = m.getThreat other := by
    intro other hother
    unfold getThreat
    rw [hrefs, refs_modifyRef_ne change hother]
  have hself : m'.getThreat ref = (change r).threat :=
    getThreat_of_some (by rw [hrefs, refs_modifyRef_self, hr]; rfl)
  have hperm : (m'.threatContainer ++ m'.threatOfflineContainer).Perm
      (m.threatContainer ++ m.threatOfflineContainer) := by
    refine (List.perm_ext_iff_of_nodup hsound.nodup_both h.nodup_both).mpr fun other => ?_
    rw [List.mem_append, List.mem_append, honline, hoffline]
    by_cases hother : other = ref
    · rw [if_pos hother, if_pos hother, hother]
      exact iff_of_true (Bool.eq_false_or_eq_true _) (List.mem_append.mp (h.mem_both hr))
    · rw [if_neg hother, if_neg hother]
  rw [totalThreat, (hperm.map _).sum_eq, sum_map_of_one h.nodup_both (h.mem_both hr) hsame, hself,
    getThreat_of_some hr]
  rfl

/-- A reference whose status stays. -/
theorem grows_modifyRef_of_status (h : Sound m) (hr : m.refs ref = some r)
    (hguid : (change r).unitGuid = r.unitGuid) (honline : (change r).online = r.online) :
    Grows m (m.modifyRef ref change) ((change r).threat - r.threat) := by
  refine grows_modifyRef h hr hguid rfl rfl (fun other => ?_) h.nodup (fun other => ?_)
    h.nodupOffline h.victim
  · by_cases hother : other = ref
    · rw [if_pos hother, honline, hother]
      refine (h.online ref).trans ⟨fun ⟨r', hr', honline'⟩ => ?_, fun honline' => ⟨r, hr, honline'⟩⟩
      exact Option.some.inj (hr'.symm.trans hr) ▸ honline'
    · rw [if_neg hother]
      exact Iff.rfl
  · by_cases hother : other = ref
    · rw [if_pos hother, honline, hother]
      refine (h.offline ref).trans ⟨fun ⟨r', hr', honline'⟩ => ?_, fun honline' => ⟨r, hr, honline'⟩⟩
      exact Option.some.inj (hr'.symm.trans hr) ▸ honline'
    · rw [if_neg hother]
      exact Iff.rfl

end change

theorem isOnline_of_some (hr : m.refs ref = some r) : m.isOnline ref = r.online := by
  rw [isOnline, hr]
  rfl

theorem Sound.mem_online (h : Sound m) (hr : m.refs ref = some r) :
    ref ∈ m.threatContainer ↔ r.online = true := by
  refine (h.online ref).trans ⟨fun ⟨r', hr', honline⟩ => ?_, fun honline => ⟨r, hr, honline⟩⟩
  exact Option.some.inj (hr'.symm.trans hr) ▸ honline

theorem Sound.mem_offline (h : Sound m) (hr : m.refs ref = some r) :
    ref ∈ m.threatOfflineContainer ↔ r.online = false := by
  refine (h.offline ref).trans ⟨fun ⟨r', hr', honline⟩ => ?_, fun honline => ⟨r, hr, honline⟩⟩
  exact Option.some.inj (hr'.symm.trans hr) ▸ honline

/-! ## 3. The status changes -/

/-- A victim that is another. -/
theorem currentVictim_forgetVictim {victim : RefId}
    (h : (m.forgetVictim ref).currentVictim = some victim) :
    m.currentVictim = some victim ∧ victim ≠ ref := by
  unfold forgetVictim at h
  by_cases hself : m.currentVictim = some ref
  · rw [if_pos hself] at h
    nomatch h
  · rw [if_neg hself] at h
    exact ⟨h, fun heq => hself (heq ▸ h)⟩

theorem mem_filter_or {c : Prop} (hc : ¬ c) :
    other ∈ refs.filter (· ≠ ref) ↔ if other = ref then c else other ∈ refs := by
  rw [List.mem_filter, decide_eq_true_iff]
  by_cases hother : other = ref
  · rw [if_pos hother]
    exact iff_of_false (fun hboth => hboth.2 hother) hc
  · rw [if_neg hother]
    exact and_iff_left hother

theorem mem_concat_or {c : Prop} (hc : c) :
    other ∈ refs ++ [ref] ↔ if other = ref then c else other ∈ refs := by
  rw [List.mem_append, List.mem_singleton]
  by_cases hother : other = ref
  · rw [if_pos hother]
    exact iff_of_true (Or.inr hother) hc
  · rw [if_neg hother]
    exact or_iff_left hother

theorem nodup_concat_of (hnodup : refs.Nodup) (hnot : ref ∉ refs) : (refs ++ [ref]).Nodup := by
  refine List.nodup_append.mpr ⟨hnodup, List.nodup_singleton ref, fun other hother ref' href' => ?_⟩
  rw [List.mem_singleton.mp href']
  exact ne_of_mem_of_not_mem hother hnot

/-- **The status of a reference is set**: it goes to the other container. -/
theorem grows_setOnlineOfflineState (h : Sound m) (hr : m.refs ref = some r) (isOnline : Bool) :
    Grows m (m.setOnlineOfflineState ref isOnline) 0 := by
  unfold setOnlineOfflineState
  rw [isOnline_of_some hr]
  by_cases hsame : r.online = isOnline
  · rw [if_neg fun hne => hne hsame]
    exact Grows.refl h
  rw [if_pos hsame]
  set change : HostileReference → HostileReference := fun r =>
    { r with online := isOnline, accessible := r.accessible && isOnline } with hchange
  have hr' : (m.modifyRef ref change).refs ref = some (change r) := by
    rw [refs_modifyRef_self, hr]
    rfl
  have hstays : (change r).threat - r.threat = 0 := sub_self _
  rw [← hstays]
  unfold onlineStatus
  rw [isOnline_of_some hr']
  cases isOnline with
  | true =>
    have hnot : ref ∉ m.threatContainer := fun hmem => hsame ((h.mem_online hr).mp hmem)
    rw [if_pos rfl]
    exact grows_modifyRef h hr rfl rfl rfl (fun _ => mem_concat_or rfl) (nodup_concat_of h.nodup hnot)
      (fun _ => mem_filter_or Bool.noConfusion) (h.nodupOffline.filter _)
      fun victim hvictim => List.mem_append_left _ (h.victim victim hvictim)
  | false =>
    have hnot : ref ∉ m.threatOfflineContainer := fun hmem => hsame ((h.mem_offline hr).mp hmem)
    rw [if_neg Bool.noConfusion]
    refine grows_modifyRef h hr rfl ?_ ?_ (fun _ => mem_filter_or Bool.noConfusion)
      (h.nodup.filter _) (fun _ => mem_concat_or rfl) (nodup_concat_of h.nodupOffline hnot)
      fun victim hvictim => ?_
    · unfold forgetVictim
      split <;> rfl
    · unfold forgetVictim
      split <;> rfl
    · obtain ⟨hvictim, hother⟩ := currentVictim_forgetVictim hvictim
      exact List.mem_filter.mpr ⟨h.victim victim hvictim, decide_eq_true hother⟩

theorem Grows.live {a : ℚ} (h : Grows m m' a) (hr : m.refs ref = some r) :
    ∃ r', m'.refs ref = some r' :=
  (h.kept ref r hr).imp fun _ hr' => hr'.1

theorem grows_setAccessibleState (h : Sound m) (hr : m.refs ref = some r) (isAccessible : Bool) :
    Grows m (m.setAccessibleState ref isAccessible) 0 :=
  sub_self r.threat ▸ grows_modifyRef_of_status h hr rfl rfl

theorem grows_relink (h : Sound m) (hr : m.refs ref = some r) : Grows m (m.relink u ref) 0 :=
  sub_self r.threat ▸ grows_modifyRef_of_status h hr rfl rfl

theorem grows_setStatus (h : Sound m) (hr : m.refs ref = some r) (isAccessible isOnline : Bool) :
    Grows m ((m.setAccessibleState ref isAccessible).setOnlineOfflineState ref isOnline) 0 := by
  have haccess := grows_setAccessibleState h hr isAccessible
  obtain ⟨r', hr'⟩ := haccess.live hr
  exact haccess.trans_same (grows_setOnlineOfflineState haccess.sound hr' isOnline)

theorem grows_updateOnlineStatus (h : Sound m) (hr : m.refs ref = some r) :
    Grows m (m.updateOnlineStatus u ref) 0 := by
  have hrelink := grows_relink (u := u) h hr
  obtain ⟨r', hr'⟩ := hrelink.live hr
  exact hrelink.trans_same (grows_setStatus hrelink.sound hr' _ _)

theorem grows_threatChange (h : Sound m) (ref : RefId) (value : ℚ) :
    Grows m (m.threatChange ref value) 0 := by
  unfold threatChange
  split
  · exact Grows.of_same h rfl rfl (List.Perm.refl _) rfl h.victim
  · exact Grows.refl h

/-! ## 4. Threat is added -/

theorem getReferenceByTarget_some {container : List RefId} {victim : ObjectGuid}
    (h : m.getReferenceByTarget container victim = some ref) :
    ref ∈ container ∧ ∃ r, m.refs ref = some r ∧ r.unitGuid = victim := by
  have hfound := List.find?_some h
  obtain ⟨r, hr, hguid⟩ := (Option.any_eq_true ..).mp hfound
  exact ⟨List.mem_of_find?_eq_some h, r, hr, of_decide_eq_true hguid⟩

theorem getReferenceByTarget_none {container : List RefId} {victim : ObjectGuid}
    (h : m.getReferenceByTarget container victim = none) (hmem : ref ∈ container)
    (hr : m.refs ref = some r) : r.unitGuid ≠ victim := by
  intro hguid
  refine List.find?_eq_none.mp h ref hmem ?_
  rw [hr]
  exact decide_eq_true hguid

/-- A new reference, for a unit without one. -/
theorem grows_newReference (h : Sound m) (victim : ObjectGuid)
    (hnew : ∀ ref r, m.refs ref = some r → r.unitGuid ≠ victim) :
    Grows m (m.newReference victim) 0 := by
  have hnone : m.refs m.nextRef = none := by
    rw [Option.eq_none_iff_forall_ne_some]
    exact fun r hr => Nat.lt_irrefl _ (h.fresh _ r hr)
  have hself : (m.newReference victim).refs m.nextRef = some ⟨victim, true, 0, 0, true, true⟩ :=
    if_pos rfl
  have hother : ∀ ref, ref ≠ m.nextRef → (m.newReference victim).refs ref = m.refs ref :=
    fun ref href => if_neg href
  have hold : ∀ ref r, m.refs ref = some r → ref ≠ m.nextRef := by
    rintro ref r hr rfl
    rw [hnone] at hr
    nomatch hr
  have hnot : m.nextRef ∉ m.threatContainer := by
    intro hmem
    obtain ⟨r, hr, -⟩ := (h.online _).mp hmem
    exact hold _ r hr rfl
  have hnotOffline : m.nextRef ∉ m.threatOfflineContainer := by
    intro hmem
    obtain ⟨r, hr, -⟩ := (h.offline _).mp hmem
    exact hold _ r hr rfl
  constructor
  case sound =>
    constructor
    case online =>
      intro ref
      refine (mem_concat_or (c := true = true) rfl).trans ?_
      by_cases href : ref = m.nextRef
      · rw [if_pos href, href, hself]
        exact iff_of_true rfl ⟨_, rfl, rfl⟩
      · rw [if_neg href, hother ref href]
        exact h.online ref
    case nodup => exact nodup_concat_of h.nodup hnot
    case offline =>
      intro ref
      by_cases href : ref = m.nextRef
      · rw [href, hself]
        exact iff_of_false hnotOffline fun ⟨r, hr, hoffline⟩ => by
          rw [← Option.some.inj hr] at hoffline
          nomatch hoffline
      · rw [hother ref href]
        exact h.offline ref
    case nodupOffline => exact h.nodupOffline
    case unique =>
      intro ref r ref' r' hr hr' heq
      by_cases href : ref = m.nextRef
      · by_cases href' : ref' = m.nextRef
        · exact href.trans href'.symm
        · rw [href, hself] at hr
          rw [hother ref' href'] at hr'
          exact absurd (heq.symm.trans (Option.some.inj hr ▸ rfl)) (hnew ref' r' hr')
      · rw [hother ref href] at hr
        by_cases href' : ref' = m.nextRef
        · rw [href', hself] at hr'
          exact absurd (heq.trans (Option.some.inj hr' ▸ rfl)) (hnew ref r hr)
        · rw [hother ref' href'] at hr'
          exact h.unique ref r ref' r' hr hr' heq
    case victim => exact fun ref hvictim => List.mem_append_left _ (h.victim ref hvictim)
    case fresh =>
      intro ref r hr
      by_cases href : ref = m.nextRef
      · exact href ▸ Nat.lt_succ_self _
      · exact Nat.lt_succ_of_lt (h.fresh ref r (hother ref href ▸ hr))
  case total =>
    have hsame : ∀ refs : List RefId, m.nextRef ∉ refs →
        refs.map (m.newReference victim).getThreat = refs.map m.getThreat := by
      intro refs hrefs
      refine List.map_congr_left fun ref href => ?_
      unfold getThreat
      rw [hother ref (ne_of_mem_of_not_mem href hrefs)]
    have hzero : (m.newReference victim).getThreat m.nextRef = 0 := getThreat_of_some hself
    have hcontainer : (m.newReference victim).threatContainer = m.threatContainer ++ [m.nextRef] := rfl
    have hoffline : (m.newReference victim).threatOfflineContainer = m.threatOfflineContainer := rfl
    rw [totalThreat, totalThreat, hcontainer, hoffline]
    rw [List.map_append, List.map_append, List.map_append, hsame _ hnot, hsame _ hnotOffline,
      List.map_singleton, hzero, List.sum_append, List.sum_append, List.sum_append,
      List.sum_singleton, add_zero, add_zero]
  case kept => exact fun ref r hr => ⟨r, (hother ref (hold ref r hr)).trans hr, rfl⟩

section recursion

/-- What is asked of adding threat to a reference. -/
def AddsUp (add : ThreatManager → RefId → ℚ → Option ThreatManager) : Prop :=
  ∀ m ref r threat m', Sound m → m.refs ref = some r → add m ref threat = some m' → Grows m m' threat

variable {add : ThreatManager → RefId → ℚ → Option ThreatManager} {victim : ObjectGuid} {threat : ℚ}

theorem AddsUp.addThreatTo (hadd : AddsUp add) (h : Sound m)
    (hdone : m.addThreatTo u add victim threat = some m') : Grows m m' threat := by
  unfold ThreatManager.addThreatTo at hdone
  split at hdone
  case h_1 ref href =>
    obtain ⟨-, r, hr, -⟩ := getReferenceByTarget_some href
    exact hadd m ref r threat m' h hr hdone
  case h_2 hnone =>
    split at hdone
    case h_1 ref href =>
      obtain ⟨-, r, hr, -⟩ := getReferenceByTarget_some href
      exact hadd m ref r threat m' h hr hdone
    case h_2 hnoneOffline =>
      have hnew := grows_newReference h victim fun ref r hr => by
        rcases List.mem_append.mp (h.mem_both hr) with hmem | hmem
        · exact getReferenceByTarget_none hnone hmem hr
        · exact getReferenceByTarget_none hnoneOffline hmem hr
      have hself : (m.newReference victim).refs m.nextRef = some ⟨victim, true, 0, 0, true, true⟩ :=
        if_pos rfl
      obtain ⟨after, hafter, rfl⟩ := Option.map_eq_some_iff.mp hdone
      have hadded := hadd _ _ _ threat after hnew.sound hself hafter
      have hgrows := zero_add threat ▸ hnew.trans hadded
      by_cases hmaster : u.isGameMaster victim = true
      · obtain ⟨r, hr⟩ := hadded.live hself
        rw [if_pos hmaster]
        exact hgrows.trans_same (grows_setOnlineOfflineState hadded.sound hr false)
      · rw [if_neg hmaster]
        exact hgrows

/-- **Redirection** changes who gets the threat, not how much there is. -/
theorem AddsUp.doAddThreat (hadd : AddsUp add) (h : Sound m)
    (hdone : m.doAddThreat u add victim threat = some m') : Grows m m' threat := by
  unfold ThreatManager.doAddThreat at hdone
  split at hdone
  case isFalse => exact hadd.addThreatTo h hdone
  case isTrue =>
    split at hdone
    case h_2 => exact hadd.addThreatTo h hdone
    case h_1 redirectTarget _ =>
      obtain ⟨between, hredirect, hrest⟩ := Option.bind_eq_some_iff.mp hdone
      have hfirst := hadd.addThreatTo h hredirect
      have hboth := hfirst.trans (hadd.addThreatTo hfirst.sound hrest)
      rwa [add_sub_cancel] at hboth

/-- How much threat a call of `addThreat` is. -/
def threatOf (m : ThreatManager) (u : Units) (victim : ObjectGuid) (threat : ℚ) (school : ℕ)
    (spell : Option ThreatSpell) : ℚ :=
  if u.isValidProcess victim m.owner spell then u.calcThreat victim threat school spell else 0

theorem AddsUp.addThreat (hadd : AddsUp add) (h : Sound m) {school : ℕ} {spell : Option ThreatSpell}
    (hdone : m.addThreat u add victim threat school spell = some m') :
    Grows m m' (m.threatOf u victim threat school spell) := by
  unfold ThreatManager.addThreat at hdone
  unfold threatOf
  by_cases hvalid : u.isValidProcess victim m.owner spell = true
  · rw [if_pos hvalid] at hdone ⊢
    exact hadd.doAddThreat h hdone
  · rw [if_neg hvalid] at hdone ⊢
    exact Option.some.inj hdone ▸ Grows.refl h

theorem calcThreat_zero (school : ℕ) : u.calcThreat victim 0 school none = 0 := by
  unfold Units.calcThreat Units.applyTotalThreatModifier
  dsimp only
  split
  · rfl
  · split
    · rfl
    · exact zero_mul _

/-- An owner gets no threat. -/
theorem threatOf_zero (school : ℕ) : m.threatOf u victim 0 school none = 0 := by
  rw [threatOf, calcThreat_zero, ite_self]

end recursion

theorem grows_lookedAt (h : Sound m) (hr : m.refs ref = some r) :
    Grows m (if m.isOnline ref then m else m.updateOnlineStatus u ref) 0 := by
  split
  · exact Grows.refl h
  · exact grows_updateOnlineStatus h hr

theorem grows_fired (h : Sound m) (ref : RefId) (value : ℚ) :
    Grows m (if value ≠ 0 then m.threatChange ref value else m) 0 := by
  split
  · exact grows_threatChange h ref value
  · exact Grows.refl h

/-- The reference itself gets the threat, and its status is looked at if it is not online. -/
theorem grows_ownThreat (h : Sound m) (hr : m.refs ref = some r) (threat : ℚ) :
    Grows m
      (let m := m.modifyRef ref fun r => { r with threat := r.threat + threat }
      let m := if m.isOnline ref then m else m.updateOnlineStatus u ref
      if threat ≠ 0 then m.threatChange ref threat else m) threat := by
  have hthreat : Grows m (m.modifyRef ref fun r => { r with threat := r.threat + threat })
      (r.threat + threat - r.threat) := grows_modifyRef_of_status h hr rfl rfl
  rw [add_sub_cancel_left] at hthreat
  obtain ⟨r', hr'⟩ := hthreat.live hr
  have hlooked := hthreat.trans_same (grows_lookedAt (u := u) hthreat.sound hr')
  exact hlooked.trans_same (grows_fired hlooked.sound ref threat)

/-- **Adding threat to a reference** adds it, whoever else is hated for it. -/
theorem addsUp_refAddThreat (u : Units) (calls : ℕ) : AddsUp (refAddThreat u calls) := by
  induction calls with
  | zero => exact fun _ _ _ _ _ _ _ hdone => nomatch hdone
  | succ calls ih =>
    intro m ref r threat m' h hr hdone
    have hown := grows_ownThreat (u := u) h hr threat
    unfold refAddThreat at hdone
    dsimp only at hdone hown
    generalize (if threat ≠ 0 then _ else _ : ThreatManager) = own at hdone hown
    split at hdone
    case h_2 => exact Option.some.inj hdone ▸ hown
    case h_1 victimOwner _ =>
      split at hdone
      · have howner := ih.addThreat hown.sound hdone
        rw [threatOf_zero] at howner
        exact hown.trans_same howner
      · exact Option.some.inj hdone ▸ hown

/-! ## 5. Operations -/

variable {calls : ℕ}

theorem sound_addThreatPercent (h : Sound m) (hr : m.refs ref = some r) {percent : ℤ}
    (hdone : m.addThreatPercent u calls ref percent = some m') : Sound m' :=
  (addsUp_refAddThreat u calls _ _ _ _ _ h hr hdone).sound

theorem grows_setTempThreatModifier (h : Sound m) (hr : m.refs ref = some r) (threat : ℚ) :
    Grows m (m.setTempThreatModifier ref threat) 0 :=
  sub_self r.threat ▸ grows_modifyRef_of_status h hr rfl rfl

theorem sound_addTempThreat (h : Sound m) (hr : m.refs ref = some r) {threat : ℚ}
    (hdone : m.addTempThreat u calls ref threat = some m') : Sound m' := by
  have htemp := grows_setTempThreatModifier h hr threat
  unfold addTempThreat at hdone
  split at hdone
  · obtain ⟨r', hr'⟩ := htemp.live hr
    exact (addsUp_refAddThreat u calls _ _ _ _ _ htemp.sound hr' hdone).sound
  · exact Option.some.inj hdone ▸ htemp.sound

theorem sound_resetTempThreat (h : Sound m) (hr : m.refs ref = some r)
    (hdone : m.resetTempThreat u calls ref = some m') : Sound m' := by
  unfold resetTempThreat at hdone
  split at hdone
  · obtain ⟨between, hadd, rfl⟩ := Option.map_eq_some_iff.mp hdone
    have hgrows := addsUp_refAddThreat u calls _ _ _ _ _ h hr hadd
    obtain ⟨r', hr'⟩ := hgrows.live hr
    exact (grows_setTempThreatModifier hgrows.sound hr' 0).sound
  · exact Option.some.inj hdone ▸ h

/-- What is scanned for the next victim is the victim there is, or another of the list. -/
def OnlineOr (m : ThreatManager) : Except (Option RefId) (Option RefId) → Prop
  | .ok next => ∀ ref, next = some ref → ref ∈ m.threatContainer
  | .error victim => ∀ ref, victim = some ref → ref ∈ m.threatContainer

theorem onlineOr_scanVictims (noPriorityTargetFound : Bool)
    (hrefs : ∀ ref ∈ refs, ref ∈ m.threatContainer) {currentVictim : Option RefId}
    (hvictim : ∀ ref, currentVictim = some ref → ref ∈ m.threatContainer) :
    m.OnlineOr (m.scanVictims u noPriorityTargetFound currentVictim refs) := by
  induction refs generalizing currentVictim with
  | nil => exact nofun
  | cons ref rest ih =>
    obtain ⟨href, hrest⟩ := List.forall_mem_cons.mp hrefs
    have hself : ∀ ref', some ref = some ref' → ref' ∈ m.threatContainer := fun ref' heq =>
      Option.some.inj heq ▸ href
    unfold scanVictims
    split
    · -- a second choice
      split
      · exact hvictim
      · refine ih hrest fun ref' href' => ?_
        split at href'
        · nomatch href'
        · exact hvictim ref' href'
    · split
      case isFalse => exact ih hrest hvictim
      case isTrue =>
        split
        case h_1 => exact hself
        case h_2 victim =>
          split
          · intro ref' href'
            obtain rfl := Option.some.inj href'
            split
            · exact hvictim victim rfl
            · exact href
          · split
            · exact hself
            · exact ih hrest hvictim

theorem selectNextVictim_mem (h : ∀ ref, m.currentVictim = some ref → ref ∈ m.threatContainer)
    (hnext : m.selectNextVictim u = some ref) : ref ∈ m.threatContainer := by
  unfold selectNextVictim at hnext
  have hfirst := onlineOr_scanVictims (u := u) (m := m) false
    (fun _ href => href) h
  split at hnext
  case h_1 next hscan =>
    rw [hscan] at hfirst
    exact hfirst ref hnext
  case h_2 victim hscan =>
    rw [hscan] at hfirst
    have hsecond := onlineOr_scanVictims (u := u) (m := m) true
      (fun _ href => href) hfirst
    split at hnext
    case h_1 next hscan =>
      rw [hscan] at hsecond
      exact hsecond ref hnext
    case h_2 => nomatch hnext

section

variable (h : Sound m)
include h

theorem sound_getHostilTarget : Sound (m.getHostilTarget u) := by
  have hperm : m.update.threatContainer.Perm m.threatContainer := by
    unfold update
    split
    · exact List.mergeSort_perm ..
    · exact List.Perm.refl _
  have hsame : Grows m (m.getHostilTarget u) 0 :=
    Grows.of_same h rfl rfl hperm rfl fun ref href => hperm.mem_iff.mp (selectNextVictim_mem (u := u)
      (fun ref hvictim => hperm.mem_iff.mpr (h.victim ref hvictim)) href)
  exact hsame.sound

theorem sound_forceVictim (taunter : ObjectGuid) : Sound (m.forceVictim taunter) := by
  unfold forceVictim
  split
  case h_1 ref href =>
    have hsame : Grows m (m.setCurrentVictim (some ref)) 0 :=
      Grows.of_same h rfl rfl (List.Perm.refl _) rfl fun ref' href' =>
        Option.some.inj href' ▸ (getReferenceByTarget_some href).1
    exact hsame.sound
  case h_2 => exact h

theorem grows_invalidate (hr : m.refs ref = some r) : Grows m (m.invalidate ref) 0 := by
  have hset := grows_setOnlineOfflineState h hr false
  obtain ⟨r', hr'⟩ := hset.live hr
  refine hset.trans_same ?_
  exact sub_self r'.threat ▸ grows_modifyRef_of_status hset.sound hr' rfl rfl

/-- A reference is taken from its container. -/
theorem removeFromList_spec (hr : m.refs ref = some r) :
    (m.removeFromList ref).refs = m.refs ∧ (m.removeFromList ref).nextRef = m.nextRef ∧
      (m.removeFromList ref).threatContainer = m.threatContainer.filter (· ≠ ref) ∧
      (m.removeFromList ref).threatOfflineContainer = m.threatOfflineContainer.filter (· ≠ ref) ∧
      (m.removeFromList ref).currentVictim = (m.forgetVictim ref).currentVictim := by
  have hforget : (m.forgetVictim ref).refs = m.refs ∧ (m.forgetVictim ref).nextRef = m.nextRef ∧
      (m.forgetVictim ref).threatContainer = m.threatContainer ∧
      (m.forgetVictim ref).threatOfflineContainer = m.threatOfflineContainer := by
    unfold forgetVictim
    split <;> exact ⟨rfl, rfl, rfl, rfl⟩
  have hkeep : ∀ refs : List RefId, ref ∉ refs → refs = refs.filter (· ≠ ref) := fun refs hnot =>
    (List.filter_eq_self.mpr fun other hother =>
      decide_eq_true (ne_of_mem_of_not_mem hother hnot)).symm
  obtain ⟨hrefs, hnext, hcontainer, hoffline⟩ := hforget
  unfold removeFromList
  rw [isOnline_of_some hr]
  cases honline : r.online with
  | true =>
    have hnot : ref ∉ m.threatOfflineContainer := fun hmem =>
      Bool.noConfusion (honline.symm.trans ((h.mem_offline hr).mp hmem))
    rw [if_pos rfl]
    exact ⟨hrefs, hnext, rfl, hoffline.trans (hkeep _ hnot), rfl⟩
  | false =>
    have hnot : ref ∉ m.threatContainer := fun hmem =>
      Bool.noConfusion (honline.symm.trans ((h.mem_online hr).mp hmem))
    rw [if_neg Bool.noConfusion]
    exact ⟨hrefs, hnext, hcontainer.trans (hkeep _ hnot), rfl, rfl⟩

/-- It is deleted then. -/
theorem sound_delete (hr : m.refs ref = some r) :
    Sound { m.removeFromList ref with
      refs := fun other => if other = ref then none else (m.removeFromList ref).refs other } := by
  obtain ⟨hrefs, hnext, hcontainer, hoffline, hvictim⟩ := removeFromList_spec h hr
  have hold : ∀ other r', (if other = ref then none else (m.removeFromList ref).refs other) = some r' →
      m.refs other = some r' ∧ other ≠ ref := by
    intro other r' hr'
    by_cases hother : other = ref
    · rw [if_pos hother] at hr'
      nomatch hr'
    · rw [if_neg hother, hrefs] at hr'
      exact ⟨hr', hother⟩
  have hstatus : ∀ refs : List RefId, ∀ status : Bool,
      (∀ other, other ∈ refs ↔ ∃ r, m.refs other = some r ∧ r.online = status) → ∀ other,
        other ∈ refs.filter (· ≠ ref) ↔ ∃ r', (if other = ref then none
          else (m.removeFromList ref).refs other) = some r' ∧ r'.online = status := by
    intro refs status hmem other
    rw [List.mem_filter, decide_eq_true_iff, hmem]
    constructor
    · rintro ⟨⟨r', hr', hstatus⟩, hother⟩
      exact ⟨r', by rw [if_neg hother, hrefs, hr'], hstatus⟩
    · rintro ⟨r', hr', hstatus⟩
      obtain ⟨hr', hother⟩ := hold other r' hr'
      exact ⟨⟨r', hr', hstatus⟩, hother⟩
  constructor
  case online => exact fun other => hcontainer ▸ hstatus _ true h.online other
  case nodup => exact hcontainer ▸ h.nodup.filter _
  case offline => exact fun other => hoffline ▸ hstatus _ false h.offline other
  case nodupOffline => exact hoffline ▸ h.nodupOffline.filter _
  case unique =>
    intro ref₁ r₁ ref₂ r₂ hr₁ hr₂
    exact h.unique ref₁ r₁ ref₂ r₂ (hold ref₁ r₁ hr₁).1 (hold ref₂ r₂ hr₂).1
  case victim =>
    intro victim hcurrent
    obtain ⟨hcurrent, hother⟩ := currentVictim_forgetVictim (hvictim.symm.trans hcurrent)
    exact hcontainer ▸ List.mem_filter.mpr ⟨h.victim victim hcurrent, decide_eq_true hother⟩
  case fresh =>
    intro other r' hr'
    exact hnext ▸ h.fresh other r' (hold other r' hr').1

theorem sound_removeReference (hr : m.refs ref = some r) : Sound (m.removeReference ref) := by
  have hinvalidate := grows_invalidate h hr
  obtain ⟨r', hr'⟩ := hinvalidate.live hr
  exact sound_delete hinvalidate.sound hr'

theorem sound_clearReferences : Sound m.clearReferences := by
  have hnone : ∀ ref, m.clearReferences.refs ref = none := by
    intro ref
    by_cases hmem : ref ∈ m.threatContainer ++ m.threatOfflineContainer
    · exact if_pos hmem
    · refine (if_neg hmem).trans (Option.eq_none_iff_forall_ne_some.mpr fun r hr => hmem (h.mem_both hr))
  constructor
  case online => exact fun ref => iff_of_false List.not_mem_nil fun ⟨r, hr, _⟩ =>
    nomatch (hnone ref).symm.trans hr
  case nodup => exact List.nodup_nil
  case offline => exact fun ref => iff_of_false List.not_mem_nil fun ⟨r, hr, _⟩ =>
    nomatch (hnone ref).symm.trans hr
  case nodupOffline => exact List.nodup_nil
  case unique => exact fun ref r _ _ hr => nomatch (hnone ref).symm.trans hr
  case victim => exact nofun
  case fresh => exact fun ref r hr => nomatch (hnone ref).symm.trans hr

/-- What a unit does to its reference. -/
theorem sound_ofTarget {target : ObjectGuid} {f : ThreatManager → RefId → Option ThreatManager}
    (hdone : m.ofTarget target f = some m')
    (hf : ∀ ref r, m.refs ref = some r → f m ref = some m' → Sound m') : Sound m' := by
  unfold ofTarget at hdone
  split at hdone
  case h_1 ref href =>
    have hfound := List.find?_some href
    have hfound := of_decide_eq_true hfound
    obtain ⟨r, hr, -⟩ := Option.bind_eq_some_iff.mp hfound
    exact hf ref r hr hdone
  case h_2 => exact Option.some.inj hdone ▸ h

/-- **The step lemma.** -/
theorem sound_handle {op : ThreatOp} (hdone : m.handle u calls op = some m') : Sound m' := by
  have hadd := addsUp_refAddThreat u calls
  cases op with
  | addThreat victim threat school spell =>
    dsimp only [handle] at hdone
    exact (hadd.addThreat h hdone).sound
  | threatAssist victim threat spell =>
    dsimp only [handle] at hdone
    split at hdone
    · exact (hadd.doAddThreat h hdone).sound
    · exact Option.some.inj hdone ▸ h
  | modifyThreatPercent victim percent =>
    dsimp only [handle] at hdone
    unfold modifyThreatPercent at hdone
    split at hdone
    case h_1 ref href =>
      obtain ⟨-, r, hr, -⟩ := getReferenceByTarget_some href
      exact sound_addThreatPercent h hr hdone
    case h_2 => exact Option.some.inj hdone ▸ h
  | addThreatPercent target percent =>
    dsimp only [handle] at hdone
    exact sound_ofTarget h hdone fun ref r hr hdone => sound_addThreatPercent h hr hdone
  | setOnlineOfflineState target isOnline =>
    dsimp only [handle] at hdone
    exact sound_ofTarget h hdone fun ref r hr hdone =>
      Option.some.inj hdone ▸ (grows_setOnlineOfflineState h hr isOnline).sound
  | updateThreatTables target =>
    dsimp only [handle] at hdone
    exact sound_ofTarget h hdone fun ref r hr hdone =>
      Option.some.inj hdone ▸ (grows_updateOnlineStatus h hr).sound
  | tauntApply taunter =>
    dsimp only [handle] at hdone
    unfold tauntApply at hdone
    split at hdone
    case h_1 victim ref _ href =>
      obtain ⟨-, r, hr, -⟩ := getReferenceByTarget_some href
      split at hdone
      · exact sound_addTempThreat h hr hdone
      · exact Option.some.inj hdone ▸ h
    case h_2 => exact Option.some.inj hdone ▸ h
  | tauntFadeOut taunter =>
    dsimp only [handle] at hdone
    unfold tauntFadeOut at hdone
    split at hdone
    case h_1 ref href =>
      obtain ⟨-, r, hr, -⟩ := getReferenceByTarget_some href
      exact sound_resetTempThreat h hr hdone
    case h_2 => exact Option.some.inj hdone ▸ h
  | addTempThreat target threat apply =>
    dsimp only [handle] at hdone
    refine sound_ofTarget h hdone fun ref r hr hdone => ?_
    split at hdone
    · split at hdone
      · exact sound_addTempThreat h hr hdone
      · exact Option.some.inj hdone ▸ h
    · exact sound_resetTempThreat h hr hdone
  | forceVictim taunter =>
    dsimp only [handle] at hdone
    exact Option.some.inj hdone ▸ sound_forceVictim h taunter
  | getHostilTarget =>
    dsimp only [handle] at hdone
    exact Option.some.inj hdone ▸ sound_getHostilTarget h
  | invalidate target =>
    dsimp only [handle] at hdone
    exact sound_ofTarget h hdone fun ref r hr hdone =>
      Option.some.inj hdone ▸ (grows_invalidate h hr).sound
  | removeReference target =>
    dsimp only [handle] at hdone
    exact sound_ofTarget h hdone fun ref r hr hdone =>
      Option.some.inj hdone ▸ sound_removeReference h hr
  | clearReferences =>
    dsimp only [handle] at hdone
    exact Option.some.inj hdone ▸ sound_clearReferences h

end

theorem sound_of_reaches {owner : ObjectGuid} (h : Reaches owner m) : Sound m := by
  induction h with
  | start =>
    constructor
    case online => exact fun ref => iff_of_false List.not_mem_nil fun ⟨_, hr, _⟩ => nomatch hr
    case nodup => exact List.nodup_nil
    case offline => exact fun ref => iff_of_false List.not_mem_nil fun ⟨_, hr, _⟩ => nomatch hr
    case nodupOffline => exact List.nodup_nil
    case unique => exact nofun
    case victim => exact nofun
    case fresh => exact nofun
  | handle _ hdone ih => exact sound_handle ih hdone

/-! ## 6. Operations return

Where each unit has an owner above it, and so on to one without, the calls come to an end. -/

variable {rank : ObjectGuid → ℕ} {victim : ObjectGuid} {threat : ℚ}

/-- Owners are ranked below what they own. -/
def OwnersRanked (u : Units) (rank : ObjectGuid → ℕ) : Prop :=
  ∀ unit owner, u.charmerOrOwner unit = some owner → rank owner < rank unit

/-- Adding threat returns, for the units of less than a rank. -/
def Returns (add : ThreatManager → RefId → ℚ → Option ThreatManager) (rank : ObjectGuid → ℕ)
    (bound : ℕ) : Prop :=
  ∀ m ref r threat, Sound m → m.refs ref = some r → rank r.unitGuid < bound →
    ∃ m', add m ref threat = some m'

variable {add : ThreatManager → RefId → ℚ → Option ThreatManager} {bound : ℕ}

theorem Returns.addThreatTo (hreturns : Returns add rank bound) (h : Sound m)
    (hrank : rank victim < bound) (threat : ℚ) : ∃ m', m.addThreatTo u add victim threat = some m' := by
  unfold ThreatManager.addThreatTo
  split
  case h_1 ref href =>
    obtain ⟨-, r, hr, rfl⟩ := getReferenceByTarget_some href
    exact hreturns m ref r threat h hr hrank
  case h_2 hnone =>
    split
    case h_1 ref href =>
      obtain ⟨-, r, hr, rfl⟩ := getReferenceByTarget_some href
      exact hreturns m ref r threat h hr hrank
    case h_2 hnoneOffline =>
      have hnew := grows_newReference h victim fun ref r hr => by
        rcases List.mem_append.mp (h.mem_both hr) with hmem | hmem
        · exact getReferenceByTarget_none hnone hmem hr
        · exact getReferenceByTarget_none hnoneOffline hmem hr
      obtain ⟨after, hafter⟩ := hreturns _ m.nextRef _ threat hnew.sound (if_pos rfl) hrank
      rw [hafter]
      exact ⟨_, rfl⟩

theorem Returns.doAddThreat (hreturns : Returns add rank bound) (hadd : AddsUp add) (h : Sound m)
    (hrank : rank victim < bound)
    (hredirect : 0 < threat → ∀ target, u.redirectThreatTarget victim = some target → rank target < bound) :
    ∃ m', m.doAddThreat u add victim threat = some m' := by
  unfold ThreatManager.doAddThreat
  split
  case isFalse => exact hreturns.addThreatTo h hrank threat
  case isTrue hpos =>
    split
    case h_2 => exact hreturns.addThreatTo h hrank threat
    case h_1 redirectTarget htarget =>
      obtain ⟨between, hbetween⟩ := hreturns.addThreatTo (u := u) h
        (hredirect hpos.1 redirectTarget htarget) (calculatePct threat (u.redirectThreatPercent victim))
      dsimp only
      rw [hbetween]
      exact hreturns.addThreatTo (hadd.addThreatTo h hbetween).sound hrank _

theorem returns_refAddThreat (hranked : OwnersRanked u rank) (calls : ℕ) :
    Returns (refAddThreat u calls) rank calls := by
  induction calls with
  | zero => exact fun _ _ _ _ _ _ hrank => absurd hrank (Nat.not_lt_zero _)
  | succ calls ih =>
    intro m ref r threat h hr hrank
    have hown := grows_ownThreat (u := u) h hr threat
    unfold refAddThreat
    dsimp only at hown ⊢
    generalize (if threat ≠ 0 then _ else _ : ThreatManager) = own at hown ⊢
    split
    case h_2 => exact ⟨_, rfl⟩
    case h_1 victimOwner howner =>
      split
      case isFalse => exact ⟨_, rfl⟩
      case isTrue =>
        obtain ⟨r', hr', hguid⟩ := hown.kept ref r hr
        obtain ⟨target, htarget, howner⟩ := Option.bind_eq_some_iff.mp howner
        have hsame : target = r.unitGuid := by
          unfold getTarget at htarget
          rw [hr', Option.bind_some] at htarget
          split at htarget
          · exact (Option.some.inj htarget).symm.trans hguid
          · nomatch htarget
        have hless : rank victimOwner < calls :=
          Nat.lt_of_lt_of_le (hranked _ _ howner) (hsame ▸ Nat.le_of_lt_succ hrank)
        unfold ThreatManager.addThreat
        split
        · rw [calcThreat_zero]
          exact ih.doAddThreat (addsUp_refAddThreat u calls) hown.sound hless
            fun hpos => absurd hpos (lt_irrefl _)
        · exact ⟨_, rfl⟩

/-- How many calls are enough for a unit, and whom its threat goes to. -/
def enoughCalls (u : Units) (rank : ObjectGuid → ℕ) (unit : ObjectGuid) : ℕ :=
  rank unit + ((u.redirectThreatTarget unit).map rank).getD 0 + 1

theorem rank_lt_enoughCalls : rank victim < enoughCalls u rank victim :=
  Nat.lt_succ_of_le (Nat.le_add_right ..)

theorem redirect_lt_enoughCalls {target : ObjectGuid}
    (h : u.redirectThreatTarget victim = some target) : rank target < enoughCalls u rank victim := by
  unfold enoughCalls
  rw [h]
  exact Nat.lt_succ_of_le (Nat.le_add_left ..)

section returns

variable (hranked : OwnersRanked u rank) (h : Sound m)
include hranked h

theorem returns_of_ref (hr : m.refs ref = some r) (hguid : r.unitGuid = victim) (threat : ℚ) :
    ∃ m', m.refAddThreat u (enoughCalls u rank victim) ref threat = some m' :=
  returns_refAddThreat hranked _ m ref r threat h hr (hguid ▸ rank_lt_enoughCalls)

theorem returns_doAddThreat : ∃ m', m.doAddThreat u (refAddThreat u (enoughCalls u rank victim))
    victim threat = some m' :=
  (returns_refAddThreat hranked _).doAddThreat (addsUp_refAddThreat u _) h rank_lt_enoughCalls
    fun _ _ => redirect_lt_enoughCalls

theorem returns_addTempThreat (hr : m.refs ref = some r) (hguid : r.unitGuid = victim) (threat : ℚ) :
    ∃ m', m.addTempThreat u (enoughCalls u rank victim) ref threat = some m' := by
  have htemp := grows_setTempThreatModifier h hr threat
  unfold addTempThreat
  split
  · obtain ⟨r', hr', hsame⟩ := htemp.kept ref r hr
    exact returns_of_ref hranked htemp.sound hr' (hsame.trans hguid) threat
  · exact ⟨_, rfl⟩

theorem returns_resetTempThreat (hr : m.refs ref = some r) (hguid : r.unitGuid = victim) :
    ∃ m', m.resetTempThreat u (enoughCalls u rank victim) ref = some m' := by
  unfold resetTempThreat
  split
  · obtain ⟨m', hm'⟩ := returns_of_ref hranked h hr hguid (-m.getTempThreatModifier ref)
    rw [hm']
    exact ⟨_, rfl⟩
  · exact ⟨_, rfl⟩

omit hranked h in
theorem ofTarget_some {target : ObjectGuid} {f : ThreatManager → RefId → Option ThreatManager}
    (hf : ∀ ref r, m.refs ref = some r → r.unitGuid = target → ∃ m', f m ref = some m') :
    ∃ m', m.ofTarget target f = some m' := by
  unfold ofTarget
  split
  case h_1 ref href =>
    have hfound := List.find?_some href
    have hfound := of_decide_eq_true hfound
    obtain ⟨r, hr, htarget⟩ := Option.bind_eq_some_iff.mp hfound
    split at htarget
    · exact hf ref r hr (Option.some.inj htarget)
    · nomatch htarget
  case h_2 => exact ⟨_, rfl⟩

/-- **Each operation returns.** -/
theorem handle_returns (op : ThreatOp) : ∃ calls m', m.handle u calls op = some m' := by
  cases op with
  | addThreat victim threat school spell =>
    refine ⟨enoughCalls u rank victim, ?_⟩
    dsimp only [handle]
    unfold addThreat
    split
    · exact returns_doAddThreat hranked h
    · exact ⟨_, rfl⟩
  | threatAssist victim threat spell =>
    refine ⟨enoughCalls u rank victim, ?_⟩
    dsimp only [handle]
    split
    · exact returns_doAddThreat hranked h
    · exact ⟨_, rfl⟩
  | modifyThreatPercent victim percent =>
    refine ⟨enoughCalls u rank victim, ?_⟩
    dsimp only [handle]
    unfold modifyThreatPercent
    split
    case h_1 ref href =>
      obtain ⟨-, r, hr, hguid⟩ := getReferenceByTarget_some href
      exact returns_of_ref hranked h hr hguid _
    case h_2 => exact ⟨_, rfl⟩
  | addThreatPercent target percent =>
    refine ⟨enoughCalls u rank target, ?_⟩
    dsimp only [handle]
    exact ofTarget_some fun ref r hr hguid => returns_of_ref hranked h hr hguid _
  | setOnlineOfflineState target isOnline =>
    refine ⟨0, ?_⟩
    dsimp only [handle]
    exact ofTarget_some fun _ _ _ _ => ⟨_, rfl⟩
  | updateThreatTables target =>
    refine ⟨0, ?_⟩
    dsimp only [handle]
    exact ofTarget_some fun _ _ _ _ => ⟨_, rfl⟩
  | tauntApply taunter =>
    refine ⟨enoughCalls u rank taunter, ?_⟩
    dsimp only [handle]
    unfold tauntApply
    split
    case h_1 victim ref _ href =>
      obtain ⟨-, r, hr, hguid⟩ := getReferenceByTarget_some href
      split
      · exact returns_addTempThreat hranked h hr hguid _
      · exact ⟨_, rfl⟩
    case h_2 => exact ⟨_, rfl⟩
  | tauntFadeOut taunter =>
    refine ⟨enoughCalls u rank taunter, ?_⟩
    dsimp only [handle]
    unfold tauntFadeOut
    split
    case h_1 ref href =>
      obtain ⟨-, r, hr, hguid⟩ := getReferenceByTarget_some href
      exact returns_resetTempThreat hranked h hr hguid
    case h_2 => exact ⟨_, rfl⟩
  | addTempThreat target threat apply =>
    refine ⟨enoughCalls u rank target, ?_⟩
    dsimp only [handle]
    refine ofTarget_some fun ref r hr hguid => ?_
    split
    · split
      · exact returns_addTempThreat hranked h hr hguid threat
      · exact ⟨_, rfl⟩
    · exact returns_resetTempThreat hranked h hr hguid
  | forceVictim taunter => exact ⟨0, _, rfl⟩
  | getHostilTarget => exact ⟨0, _, rfl⟩
  | invalidate target =>
    refine ⟨0, ?_⟩
    dsimp only [handle]
    exact ofTarget_some fun _ _ _ _ => ⟨_, rfl⟩
  | removeReference target =>
    refine ⟨0, ?_⟩
    dsimp only [handle]
    exact ofTarget_some fun _ _ _ _ => ⟨_, rfl⟩
  | clearReferences => exact ⟨0, _, rfl⟩

end returns

/-! ## 7. All states -/

/-- **The containers of a threat manager**, in whatever state it comes to: it is sound, redirected
threat adds up to what there was, and operations return where owners come to an end. -/
theorem threat_containers {owner : ObjectGuid} {m : ThreatManager} (h : Reaches owner m) :
    Sound m ∧
      (∀ u calls victim threat m', m.doAddThreat u (refAddThreat u calls) victim threat = some m' →
        m'.totalThreat = m.totalThreat + threat) ∧
      ∀ u rank, OwnersRanked u rank → ∀ op, ∃ calls m', m.handle u calls op = some m' := by
  have hsound := sound_of_reaches h
  exact ⟨hsound, fun u calls _ _ _ hdone =>
    ((addsUp_refAddThreat u calls).doAddThreat hsound hdone).total,
    fun u rank hranked op => handle_returns hranked hsound op⟩

section example_units

/-- Units in plain sight.  The second is a pet of the first, and three tenths of its threat go to
the third. -/
def huntingParty : Units where
  charmerOrOwner unit := if unit = 2 then some 1 else none
  redirectThreatPercent unit := if unit = 2 then 30 else 0
  redirectThreatTarget unit := if unit = 2 then some 3 else none
  threatModifier _ := none
  isFound _ := true
  isAlive _ := true
  isGameMaster _ := false
  isInFlight _ := false
  isInMap _ := true
  inSamePhase _ := true
  isInAccessiblePlace _ := true
  isWithinCombatRange _ := true
  isWithinMeleeRange _ := true
  isSecondChoice _ := false
  canCreatureAttack _ := true

theorem threat_containers_pet : ∃ m, ((start 0).handle huntingParty 2 (.addThreat 2 100 0 none)) =
    some m ∧ m.threatContainer.map m.getThreat = [30, 70, 0] ∧ Sound m := by
  have hdone : ((start 0).handle huntingParty 2 (.addThreat 2 100 0 none)).map
      (fun m => m.threatContainer.map m.getThreat) = some [30, 70, 0] := by decide +kernel
  obtain ⟨m, hm, hthreat⟩ := Option.map_eq_some_iff.mp hdone
  exact ⟨m, hm, hthreat, (threat_containers (.handle .start hm)).1⟩

end example_units

end ThreatManager

end HungerGames.Combat
