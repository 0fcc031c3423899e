/-
# The logs of a guild (`Guild::LogHolder`)

A guild has a log of its events, one of its money and one for each tab of its bank.  Each is a
list in memory and a set of rows in the database.  A row is found by its `LogGuid`, which counts
up and starts again from `0` behind the capacity of the log, so a new row takes the place of the
oldest.  When the server starts, the rows are read newest first and each is put before the others.

The rows do not say in which order the events of one second happened.  The query takes the
`LogGuid` for it, which is right unless the count has started again within that second.

The rows of other guilds and of other tabs, which the same query returns, go to other holders.
-/
import HungerGames.System.Run
import Mathlib.Algebra.Group.Nat.Defs
import Mathlib.Data.List.Sort

namespace HungerGames.Guilds.Logs

open HungerGames.System

/-! ## 1. The holder -/

/-- `LogEntry`: what every entry has, and the event. -/
structure LogEntry (α : Type) where
  guid : ℕ
  timestamp : ℕ
  event : α
deriving DecidableEq

/-- `GUILD_EVENT_LOG_GUID_UNDEFINED` -/
def guidUndefined : ℕ := 0xFFFFFFFF

structure LogHolder (α : Type) where
  log : List (LogEntry α)
  maxRecords : ℕ
  nextGUID : ℕ
deriving DecidableEq

section

variable {α : Type}

namespace LogHolder

def new (maxRecords : ℕ) : LogHolder α := ⟨[], maxRecords, guidUndefined⟩

def canInsert (h : LogHolder α) : Bool := h.log.length < h.maxRecords

/-- `LoadEvent` -/
def loadEvent (h : LogHolder α) (entry : LogEntry α) : LogHolder α :=
  { h with
    nextGUID := if h.nextGUID = guidUndefined then entry.guid else h.nextGUID
    log := entry :: h.log }

/-- `AddEvent`, in memory -/
def addEvent (h : LogHolder α) (entry : LogEntry α) : LogHolder α :=
  { h with log := (if h.maxRecords ≤ h.log.length then h.log.tail else h.log) ++ [entry] }

/-- `GetNextGUID`: the value, which is kept. -/
def getNextGUID (h : LogHolder α) : ℕ :=
  if h.nextGUID = guidUndefined then 0 else (h.nextGUID + 1) % h.maxRecords

end LogHolder

/-! ## 2. The rows -/

/-- `SaveToDB`: the row with this `LogGuid` is deleted, and the new one inserted. -/
def saveToDB (table : List (LogEntry α)) (entry : LogEntry α) : List (LogEntry α) :=
  table.filter (fun row => row.guid ≠ entry.guid) ++ [entry]

/-- `ORDER BY TimeStamp DESC, LogGuid DESC` -/
def Newer (a b : LogEntry α) : Prop :=
  b.timestamp < a.timestamp ∨ b.timestamp = a.timestamp ∧ b.guid ≤ a.guid

instance : DecidableRel (Newer (α := α)) := fun a b =>
  inferInstanceAs (Decidable (b.timestamp < a.timestamp ∨ _ ∧ _))

instance : Std.Total (Newer (α := α)) := ⟨fun a b => by unfold Newer; omega⟩

instance : IsTrans (LogEntry α) Newer := ⟨fun a b c => by unfold Newer; omega⟩

/-- `LoadEventLogFromDB`: the time stamp of a row is read as a `uint32`. -/
def loadRow (h : LogHolder α) (row : LogEntry α) : LogHolder α :=
  if h.canInsert then h.loadEvent { row with timestamp := row.timestamp % 2 ^ 32 } else h

/-! ## 3. The guild's life -/

/-- A log, its rows, and the clock.  The history is written down; no function of the source reads
it. -/
structure Logged (α : Type) where
  holder : LogHolder α
  table : List (LogEntry α)
  now : ℕ
  history : List (ℕ × α)

def Logged.init (maxRecords : ℕ) : Logged α := ⟨.new maxRecords, [], 0, []⟩

inductive Input (α : Type) where
  /-- time goes by -/
  | clock (seconds : ℕ)
  /-- `_LogEvent`, `_LogBankEvent` -/
  | logEvent (event : α)
  /-- the server starts again -/
  | reload

/-- The rows with a `LogGuid` above the capacity are deleted, and the others are loaded. -/
def Logged.reload (s : Logged α) : Logged α :=
  let table := s.table.filter fun row => row.guid ≤ s.holder.maxRecords
  { s with
    table := table
    holder := (table.insertionSort Newer).foldl loadRow (.new s.holder.maxRecords) }

def Logged.logEvent (s : Logged α) (event : α) : Logged α :=
  let entry : LogEntry α := ⟨s.holder.getNextGUID, s.now, event⟩
  { s with
    holder := { s.holder with nextGUID := s.holder.getNextGUID }.addEvent entry
    table := saveToDB s.table entry
    history := s.history ++ [(s.now, event)] }

def step (s : Logged α) : Input α → Logged α
  | .clock seconds => { s with now := max s.now seconds }
  | .logEvent event => s.logEvent event
  | .reload => s.reload

/-! ## 4. The ring -/

/-- The entries of a history: the `LogGuid` of each is its number, modulo the capacity. -/
def ring (m : ℕ) (history : List (ℕ × α)) : List (LogEntry α) :=
  history.zipIdx.map fun e => ⟨e.2 % m, e.1.1, e.1.2⟩

/-- The last `m`, or all. -/
def recent {β : Type} (m : ℕ) (l : List β) : List β := l.drop (l.length - m)

/-- The event of an entry and its time. -/
def LogEntry.happened (e : LogEntry α) : ℕ × α := (e.timestamp, e.event)

@[simp] theorem length_ring (m : ℕ) (history : List (ℕ × α)) :
    (ring m history).length = history.length := by
  simp [ring]

theorem ring_append (m : ℕ) (history : List (ℕ × α)) (e : ℕ × α) :
    ring m (history ++ [e]) = ring m history ++ [⟨history.length % m, e.1, e.2⟩] := by
  simp [ring, List.zipIdx_append]

theorem map_ring (m : ℕ) (history : List (ℕ × α)) :
    (ring m history).map LogEntry.happened = history := by
  refine List.ext_getElem (by simp) fun i hi hi' => ?_
  simp [ring, LogEntry.happened]

theorem guid_ring {m : ℕ} {history : List (ℕ × α)} {i : ℕ} (hi : i < (ring m history).length) :
    (ring m history)[i].guid = i % m := by
  simp [ring]

theorem length_recent {β : Type} (m : ℕ) (l : List β) : (recent m l).length = min l.length m := by
  rw [recent, List.length_drop]
  omega

theorem map_recent {β γ : Type} (m : ℕ) (l : List β) (f : β → γ) :
    (recent m l).map f = recent m (l.map f) := by
  rw [recent, recent, List.map_drop, List.length_map]

/-- A new entry goes behind the others, and the oldest goes when there is no room. -/
theorem recent_append {β : Type} {m : ℕ} (hm : 0 < m) (l : List β) (x : β) :
    recent m (l ++ [x]) =
      (if m ≤ (recent m l).length then (recent m l).tail else recent m l) ++ [x] := by
  rw [length_recent]
  unfold recent
  split
  · next hfull =>
    have hk : (l ++ [x]).length - m = l.length - m + 1 := by
      rw [List.length_append, List.length_singleton]
      omega
    rw [hk, List.tail_drop, List.drop_append_of_le_length (by omega)]
  · next hroom =>
    have hk : (l ++ [x]).length - m = 0 := by
      rw [List.length_append, List.length_singleton]
      omega
    have hk' : l.length - m = 0 := by omega
    rw [hk, hk', List.drop_zero, List.drop_zero]

/-- The entries that are kept have `LogGuid`s of their own. -/
theorem pairwise_guid {m : ℕ} (history : List (ℕ × α)) :
    (recent m (ring m history)).Pairwise fun a b => a.guid ≠ b.guid := by
  rw [List.pairwise_iff_getElem]
  intro i j hi hj hij
  rw [length_recent, length_ring] at hi hj
  simp only [recent, List.getElem_drop, guid_ring]
  rw [length_ring]
  intro hsame
  have hzero := Nat.sub_mod_eq_zero_of_mod_eq hsame.symm
  rw [Nat.mod_eq_of_lt (by omega)] at hzero
  omega

/-- The next `LogGuid` is that of the oldest entry when there is no room, else a new one. -/
theorem filter_guid {m : ℕ} (hm : 0 < m) (history : List (ℕ × α)) :
    (recent m (ring m history)).filter (fun row => row.guid ≠ history.length % m) =
      if m ≤ (recent m (ring m history)).length then (recent m (ring m history)).tail
      else recent m (ring m history) := by
  have hdistinct := pairwise_guid (m := m) history
  have hlength := length_recent m (ring m history)
  rw [length_ring] at hlength
  split
  · next hfull =>
    obtain ⟨oldest, rest, hcons⟩ := List.exists_cons_of_length_pos (lt_of_lt_of_le hm hfull)
    have hfirst : oldest.guid = history.length % m := by
      have hzero : (recent m (ring m history))[0] = oldest := by simp only [hcons, List.getElem_cons_zero]
      rw [← hzero]
      simp only [recent, List.getElem_drop, guid_ring, length_ring, Nat.add_zero]
      rw [← Nat.add_mod_right (history.length - m) m, Nat.sub_add_cancel (by omega)]
    rw [hcons] at hdistinct ⊢
    rw [List.filter_cons_of_neg (by simpa using hfirst), List.tail_cons, List.filter_eq_self]
    intro row hrow
    have := (List.pairwise_cons.mp hdistinct).1 row hrow
    rw [hfirst] at this
    simpa using this.symm
  · next hroom =>
    rw [List.filter_eq_self]
    intro row hrow
    obtain ⟨i, hi, rfl⟩ := List.mem_iff_getElem.mp hrow
    simp only [recent, List.getElem_drop, guid_ring, length_ring, decide_eq_true_eq]
    rw [Nat.mod_eq_of_lt (by omega), Nat.mod_eq_of_lt (by omega)]
    omega

/-! ## 5. What a step does -/

/-- The log in memory and the rows hold the last events, the log in the order they happened. -/
def Agrees (s : Logged α) : Prop :=
  s.holder.log.map LogEntry.happened = recent s.holder.maxRecords s.history ∧
    s.table.Perm s.holder.log

/-- After the step the log and the rows hold the last events; a new event takes the row of the
oldest one, when there is no room, and no other; a restart gives the log back as it was, and the
position with it. -/
def KeepsLog (s : Logged α) (i : Input α) : Prop :=
  Agrees (step s i) ∧
    match i with
    | .clock _ => True
    | .logEvent _ => ∀ row ∈ s.table, row ∈ (step s i).table ∨
      s.holder.maxRecords ≤ s.holder.log.length ∧ s.holder.log.head? = some row
    | .reload => (step s i).holder = s.holder

/-- Of two events of one second in the log, the later has the greater `LogGuid`. -/
def Untied (s : Logged α) : Prop :=
  s.holder.log.Pairwise fun a b => a.timestamp = b.timestamp → a.guid < b.guid

/-- At a restart the count has not started again within a second. -/
def ReloadsUntied (s : Logged α) : Input α → Prop
  | .reload => Untied s
  | _ => True

/-- A time the database can hold. -/
def Input.Fits : Input α → Prop
  | .clock seconds => seconds < 2 ^ 32
  | _ => True

/-- Memory and rows are those of the history. -/
structure InStep (m : ℕ) (s : Logged α) : Prop where
  records : s.holder.maxRecords = m
  log : s.holder.log = recent m (ring m s.history)
  next : s.holder.nextGUID =
    if s.history = [] then guidUndefined else (s.history.length - 1) % m
  table : s.table.Perm s.holder.log
  ordered : s.history.Pairwise fun a b => a.1 ≤ b.1
  past : ∀ e ∈ s.history, e.1 ≤ s.now
  clock : s.now < 2 ^ 32

theorem inStep_init (m : ℕ) : InStep m (Logged.init m : Logged α) :=
  ⟨rfl, List.drop_nil.symm, rfl, List.Perm.nil, List.Pairwise.nil, fun _ h => absurd h List.not_mem_nil,
    Nat.two_pow_pos 32⟩

variable {m : ℕ} {s : Logged α}

theorem InStep.agrees (hs : InStep m s) : Agrees s := by
  refine ⟨?_, hs.table⟩
  rw [hs.log, hs.records, map_recent, map_ring]

theorem InStep.guid (hm : 0 < m) (hm' : m < 2 ^ 32) (hs : InStep m s) :
    s.holder.getNextGUID = s.history.length % m := by
  rw [LogHolder.getNextGUID, hs.next, hs.records]
  by_cases hnone : s.history = []
  · rw [if_pos hnone, if_pos rfl, hnone]
    exact (Nat.zero_mod m).symm
  · have hlast := Nat.mod_lt (s.history.length - 1) hm
    have hsome := List.length_pos_of_ne_nil hnone
    rw [if_neg hnone, if_neg (by unfold guidUndefined; omega), ← Nat.add_mod_mod, Nat.mod_add_mod,
      Nat.add_mod_mod, Nat.sub_add_cancel hsome]

theorem inStep_logEvent (hm : 0 < m) (hm' : m < 2 ^ 32) (hs : InStep m s) (event : α) :
    InStep m (s.logEvent event) := by
  have hguid := hs.guid hm hm'
  have hlog : (s.logEvent event).holder.log =
      recent m (ring m (s.history ++ [(s.now, event)])) := by
    have hadd : (s.logEvent event).holder.log =
        (if s.holder.maxRecords ≤ s.holder.log.length then s.holder.log.tail else s.holder.log) ++
          [⟨s.holder.getNextGUID, s.now, event⟩] := rfl
    rw [hadd, ring_append, recent_append hm, hguid, hs.records, hs.log]
  refine ⟨hs.records, hlog, ?_, ?_, ?_, fun e he => ?_, hs.clock⟩
  · have hnext : (s.logEvent event).holder.nextGUID = s.holder.getNextGUID := rfl
    have hhistory : (s.logEvent event).history = s.history ++ [(s.now, event)] := rfl
    rw [hnext, hhistory, hguid, if_neg (by simp), List.length_append, List.length_singleton,
      Nat.add_sub_cancel]
  · have htable : (s.logEvent event).table = s.table.filter
        (fun row => row.guid ≠ s.holder.getNextGUID) ++ [⟨s.holder.getNextGUID, s.now, event⟩] := rfl
    rw [htable, hlog, ring_append, recent_append hm, ← filter_guid hm, hguid]
    refine List.Perm.append_right _ ?_
    rw [← hs.log]
    exact hs.table.filter _
  · refine List.pairwise_append.mpr ⟨hs.ordered, List.pairwise_singleton _ _, fun a ha b hb => ?_⟩
    rw [List.mem_singleton.mp hb]
    exact hs.past a ha
  · rcases List.mem_append.mp he with he | he
    · exact hs.past e he
    · rw [List.mem_singleton.mp he]
      exact le_rfl

/-- Only the oldest row gives way. -/
theorem logEvent_overwrites (hm : 0 < m) (hm' : m < 2 ^ 32) (hs : InStep m s) (event : α) :
    ∀ row ∈ s.table, row ∈ (s.logEvent event).table ∨
      s.holder.maxRecords ≤ s.holder.log.length ∧ s.holder.log.head? = some row := by
  intro row hrow
  have hin : row ∈ s.holder.log := hs.table.subset hrow
  by_cases hsame : row.guid = s.holder.getNextGUID
  · have hgone : row ∉ s.holder.log.filter fun row => row.guid ≠ s.history.length % m := by
      rw [List.mem_filter, hsame, hs.guid hm hm']
      simp
    rw [hs.log, filter_guid hm, ← hs.log] at hgone
    split at hgone
    · next hfull =>
      refine Or.inr ⟨hs.records ▸ hfull, ?_⟩
      cases hlog : s.holder.log with
      | nil => rw [hlog] at hin; exact absurd hin List.not_mem_nil
      | cons oldest rest =>
        rw [hlog] at hin hgone
        rcases List.mem_cons.mp hin with rfl | hin
        · rfl
        · exact absurd hin hgone
    · exact absurd hin hgone
  · refine Or.inl (List.mem_append_left _ (List.mem_filter.mpr ⟨hrow, ?_⟩))
    simpa using hsame

/-! ## 6. The restart -/

/-- Rows are put before each other, the first one read gives the position. -/
theorem foldl_loadRow (h : LogHolder α) (rows : List (LogEntry α))
    (hroom : h.log.length + rows.length ≤ h.maxRecords)
    (hrows : ∀ row ∈ rows, row.timestamp < 2 ^ 32 ∧ row.guid ≠ guidUndefined) :
    rows.foldl loadRow h =
      { h with
        log := rows.reverse ++ h.log
        nextGUID := if h.nextGUID = guidUndefined then
          (rows.head?.map LogEntry.guid).getD guidUndefined else h.nextGUID } := by
  induction rows generalizing h with
  | nil =>
    by_cases hnext : h.nextGUID = guidUndefined
    · simp [hnext.symm]
    · simp [hnext]
  | cons row rows ih =>
    obtain ⟨htime, hguid⟩ := hrows row List.mem_cons_self
    rw [List.length_cons] at hroom
    have hload : loadRow h row = h.loadEvent row := by
      have hinsert : h.canInsert = true := decide_eq_true (by omega)
      rw [loadRow, if_pos hinsert, Nat.mod_eq_of_lt htime]
    have hlog : (h.loadEvent row).log = row :: h.log := rfl
    have hroom' : (h.loadEvent row).log.length + rows.length ≤ (h.loadEvent row).maxRecords := by
      have hmax : (h.loadEvent row).maxRecords = h.maxRecords := rfl
      rw [hlog, hmax, List.length_cons]
      omega
    rw [List.foldl_cons, hload, ih (h.loadEvent row) hroom' fun r hr =>
      hrows r (List.mem_cons_of_mem row hr)]
    by_cases hnext : h.nextGUID = guidUndefined
    · simp [LogHolder.loadEvent, hnext, hguid]
    · simp [LogHolder.loadEvent, hnext]

/-- What is loaded: the rows, in the order of the query. -/
theorem reload_eq (hm' : m < 2 ^ 32) (hm : 0 < m) (hs : InStep m s) :
    s.reload.table = s.table ∧
      s.reload.holder = ⟨(s.table.insertionSort Newer).reverse, m,
        ((s.table.insertionSort Newer).head?.map LogEntry.guid).getD guidUndefined⟩ := by
  have hring : ∀ row ∈ s.table, row.timestamp < 2 ^ 32 ∧ row.guid < m := by
    intro row hrow
    have hin : row ∈ recent m (ring m s.history) := hs.log ▸ hs.table.subset hrow
    have hin' : row ∈ ring m s.history := List.mem_of_mem_drop hin
    obtain ⟨i, hi, hget⟩ := List.mem_iff_getElem.mp hin'
    have hguid : row.guid = i % m := hget ▸ guid_ring hi
    have hhappened : row.happened ∈ s.history := by
      rw [← map_ring m s.history]
      exact List.mem_map_of_mem hin'
    have hpast : row.timestamp ≤ s.now := hs.past _ hhappened
    exact ⟨lt_of_le_of_lt hpast hs.clock, hguid ▸ Nat.mod_lt i hm⟩
  have htable : s.table.filter (fun row => row.guid ≤ s.holder.maxRecords) = s.table := by
    refine List.filter_eq_self.mpr fun row hrow => ?_
    rw [hs.records]
    exact decide_eq_true (Nat.le_of_lt (hring row hrow).2)
  refine ⟨htable, ?_⟩
  have hsorted : (s.table.insertionSort Newer).Perm s.table := List.perm_insertionSort Newer s.table
  have hroom : (s.table.insertionSort Newer).length ≤ m := by
    rw [hsorted.length_eq, hs.table.length_eq, hs.log, length_recent]
    exact Nat.min_le_right _ _
  have hrows : ∀ row ∈ s.table.insertionSort Newer,
      row.timestamp < 2 ^ 32 ∧ row.guid ≠ guidUndefined := by
    intro row hrow
    obtain ⟨htime, hguid⟩ := hring row (hsorted.subset hrow)
    refine ⟨htime, ?_⟩
    unfold guidUndefined
    omega
  have hload : s.reload.holder = (s.table.insertionSort Newer).foldl loadRow (.new m) := by
    unfold Logged.reload
    simp only [htable]
    rw [hs.records]
  have hnew : (LogHolder.new m : LogHolder α).log.length +
      (s.table.insertionSort Newer).length ≤ (LogHolder.new m : LogHolder α).maxRecords :=
    (Nat.zero_add _).le.trans hroom
  rw [hload, foldl_loadRow (.new m) _ hnew hrows]
  simp [LogHolder.new]

/-- Entries of one second come back in the order of their `LogGuid`s. -/
theorem reload_holder_iff (hm : 0 < m) (hm' : m < 2 ^ 32) (hs : InStep m s) :
    s.reload.holder = s.holder ↔ Untied s := by
  obtain ⟨-, hholder⟩ := reload_eq hm' hm hs
  have hdistinct : s.holder.log.Pairwise fun a b => a.guid ≠ b.guid :=
    hs.log ▸ pairwise_guid s.history
  have hperm : (s.table.insertionSort Newer).Perm s.holder.log :=
    (List.perm_insertionSort Newer s.table).trans hs.table
  have hsorted : (s.table.insertionSort Newer).Pairwise Newer :=
    List.pairwise_insertionSort Newer s.table
  rw [hholder]
  constructor
  · intro hback
    have hlog : (s.table.insertionSort Newer).reverse = s.holder.log :=
      congrArg LogHolder.log hback
    have hnewer : s.holder.log.Pairwise fun a b => Newer b a := by
      rw [← hlog]
      exact List.pairwise_reverse.mpr hsorted
    refine (hnewer.and hdistinct).imp fun {a b} h htime => ?_
    rcases h.1 with hlt | ⟨-, hle⟩
    · omega
    · have := h.2
      omega
  · intro huntied
    have htimes : s.holder.log.Pairwise fun a b => a.timestamp ≤ b.timestamp := by
      have hordered := hs.ordered
      rw [← map_ring m s.history, List.pairwise_map] at hordered
      exact hs.log ▸ hordered.sublist (List.drop_sublist _ _)
    have hnewer : s.holder.log.reverse.Pairwise Newer := by
      refine List.pairwise_reverse.mpr ((htimes.and huntied).imp fun {a b} h => ?_)
      rcases Nat.lt_or_eq_of_le h.1 with hlt | heq
      · exact Or.inl hlt
      · exact Or.inr ⟨heq, Nat.le_of_lt (h.2 heq)⟩
    -- two rows that are newer than each other have the same `LogGuid`, so they are one row
    have hsort : s.table.insertionSort Newer = s.holder.log.reverse := by
      refine List.Perm.eq_of_pairwise (fun a b ha hb hab hba => ?_) hsorted hnewer
        (hperm.trans (List.reverse_perm _).symm)
      have hguid : a.guid = b.guid := by
        unfold Newer at hab hba
        omega
      have hnodup : (s.holder.log.map LogEntry.guid).Nodup := List.pairwise_map.mpr hdistinct
      exact List.inj_on_of_nodup_map hnodup (hperm.subset ha) (List.mem_reverse.mp hb) hguid
    have hnext : ((s.holder.log.reverse).head?.map LogEntry.guid).getD guidUndefined =
        s.holder.nextGUID := by
      rw [hs.next, hs.log]
      rcases List.eq_nil_or_concat' s.history with hnone | ⟨before, last, hlast⟩
      · simp [hnone, ring, recent]
      · rw [hlast, ring_append, recent_append hm]
        simp
    rw [hsort, List.reverse_reverse, hnext, ← hs.records]

theorem inStep_reload (hm : 0 < m) (hm' : m < 2 ^ 32) (hs : InStep m s) (huntied : Untied s) :
    InStep m s.reload := by
  have htable := (reload_eq hm' hm hs).1
  have hholder := (reload_holder_iff hm hm' hs).mpr huntied
  refine ⟨?_, ?_, ?_, ?_, hs.ordered, hs.past, hs.clock⟩
  · rw [hholder, hs.records]
  · rw [hholder, hs.log]
    rfl
  · rw [hholder, hs.next]
    rfl
  · rw [hholder, htable]
    exact hs.table

theorem keepsLog_iff (hm : 0 < m) (hm' : m < 2 ^ 32) {i : Input α} (hs : InStep m s) :
    KeepsLog s i ↔ ReloadsUntied s i := by
  cases i with
  | clock seconds => exact iff_of_true ⟨hs.agrees, trivial⟩ trivial
  | logEvent event =>
    exact iff_of_true ⟨(inStep_logEvent hm hm' hs event).agrees, logEvent_overwrites hm hm' hs event⟩
      trivial
  | reload =>
    have hiff := reload_holder_iff hm hm' hs
    exact ⟨fun h => hiff.mp h.2, fun h => ⟨(inStep_reload hm hm' hs h).agrees, hiff.mpr h⟩⟩

theorem inStep_step (hm : 0 < m) (hm' : m < 2 ^ 32) {i : Input α} (hi : i.Fits) (hs : InStep m s)
    (hkeeps : KeepsLog s i) : InStep m (step s i) := by
  cases i with
  | clock seconds =>
    refine ⟨hs.records, hs.log, hs.next, hs.table, hs.ordered, fun e he => ?_, ?_⟩
    · exact le_trans (hs.past e he) (Nat.le_max_left _ _)
    · exact Nat.max_lt.mpr ⟨hs.clock, hi⟩
  | logEvent event => exact inStep_logEvent hm hm' hs event
  | reload => exact inStep_reload hm hm' hs ((keepsLog_iff hm hm' hs).mp hkeeps)

/-- **The log and its rows are the last events**, and stay so over every restart, in exactly the
runs in which no restart comes when the count has started again within a second. -/
theorem keepsLog_iff_reloadsUntied (hm : 0 < m) (hm' : m < 2 ^ 32) (is : List (Input α))
    (his : ∀ i ∈ is, i.Fits) :
    Along step KeepsLog (Logged.init m) is ↔ Along step ReloadsUntied (Logged.init m) is :=
  along_congr (fun _ _ hi hs hkeeps => inStep_step hm hm' hi hs hkeeps)
    (fun _ _ _ hs => keepsLog_iff hm hm' hs) his (inStep_init m)

end

/-- Three events in a log for two, each in a second of its own, and a restart. -/
theorem keepsLog_iff_reloadsUntied_three :
    Along step KeepsLog (Logged.init 2) [.logEvent 1, .clock 1, .logEvent 2, .clock 2, .logEvent 3,
        .reload] ↔
      Along step ReloadsUntied (Logged.init 2) [.logEvent 1, .clock 1, .logEvent 2, .clock 2,
        .logEvent 3, .reload] := by
  refine keepsLog_iff_reloadsUntied (by decide) (by decide) _ fun i hi => ?_
  simp only [List.mem_cons, List.not_mem_nil, or_false] at hi
  rcases hi with rfl | rfl | rfl | rfl | rfl | rfl
  · trivial
  · exact (by decide : 1 < 2 ^ 32)
  · trivial
  · exact (by decide : 2 < 2 ^ 32)
  · trivial
  · trivial

/-- **The order of a log is lost.**  Three events in a log for two, all in one second: the third
has the `LogGuid` `0`, the second `1`, and after a restart the third comes first. -/
theorem log_reversed :
    ¬ Along step KeepsLog (Logged.init 2) [.logEvent 1, .logEvent 2, .logEvent 3, .reload] := by
  intro h
  exact absurd h.2.2.2.1.2 (by decide)

end HungerGames.Guilds.Logs
