/-
# Closing a socket behind what is sent

`DelayedCloseSocket` marks a socket "for closing after write buffer becomes empty".  The build
with I/O completion ports does so: the completion of a write starts the next one whatever the
mark says, and closes the socket when there is none.  In the other build everything that writes
asks `IsOpen` first, and a socket that is marked is not open: what waits at that moment is never
written.
-/
import HungerGames.World.SendOrder

namespace HungerGames.World

open HungerGames.Lua (Bytes)
open HungerGames.System

variable {κ : Type}

/-! ## 1. The build without I/O completion ports -/

namespace Outgoing

/-- The kernel takes bytes, or none for now. -/
def Input.Accepts : Input → Prop
  | .round o o' => ¬ o.Refuses ∧ ¬ o'.Refuses
  | .wrapper o o' => ¬ o.Refuses ∧ ¬ o'.Refuses
  | _ => True

/-- `Update`, a round of its loop, or `WriteHandlerWrapper` runs. -/
def Runs (s : Outgoing κ) : Input → Prop
  | .update => True
  | .round _ _ => s.updating = true
  | .wrapper _ _ => s.isWritingAsync = true ∧ s.updating = false
  | _ => False

/-- Nothing is written any more unless `Update` comes again: no wait, and no loop. -/
def Stopped (s : Outgoing κ) : Prop := s.isWritingAsync = false ∧ s.updating = false

/-- On a socket marked for closing, and not closed yet, no step of `Update` or `WriteHandler`
stops writing while bytes wait. -/
def Flushes (cipher : Cipher κ) (s : Outgoing κ) (i : Input) : Prop :=
  s.closing = true → s.closed = false → s.Runs i → (step cipher s i).Stopped →
    (step cipher s i).pending = []

/-- Nothing waits, and nobody is about to send. -/
def Drained (s : Outgoing κ) : Prop := s.pending = [] ∧ s.senders = []

variable {cipher : Cipher κ}

/-- A write the kernel accepts takes nothing away from the queue. -/
theorem Input.Accepts.keepsQueue {i : Input} (hi : i.Accepts) (s : Outgoing κ) : KeepsQueue s i := by
  cases i with
  | round o o' => exact fun _ hloses => hi.2 hloses.2.2.2
  | wrapper o o' => exact fun _ _ hloses => hi.2 hloses.2.2.2
  | _ => trivial

theorem complete_of_accepts (cipher : Cipher κ) {is : List Input} (his : ∀ i ∈ is, i.Accepts) :
    (exec (step cipher) init is).Complete := by
  have hstep : ∀ (s : Outgoing κ) (i : Input), i.Accepts → s.Complete →
      (step cipher s i).Complete := fun s i hi hs => complete_step hs (hi.keepsQueue s)
  exact exec_invariant_of_mem hstep his complete_init

theorem enqueue_same (s : Outgoing κ) (p : Outbound) :
    (s.enqueue cipher p).closed = s.closed ∧ (s.enqueue cipher p).closing = s.closing ∧
      (s.enqueue cipher p).updating = s.updating := by
  unfold Outgoing.enqueue
  simp only
  split <;> exact ⟨rfl, rfl, rfl⟩

variable {s : Outgoing κ}

theorem isOpen_of_closing (hclosing : s.closing = true) : s.isOpen = false := by
  rw [isOpen, hclosing, Bool.not_true, Bool.and_false]

theorem writeHandler_of_closing (s : Outgoing κ) (hclosing : s.closing = true) (o o' : WriteSome) :
    s.writeHandler o o' = (s, false) := if_pos (isOpen_of_closing hclosing)

/-- What is marked for closing stays marked, with nothing to write. -/
theorem drained_step (i : Input) (hs : s.closing = true ∧ s.Drained) :
    (step cipher s i).closing = true ∧ (step cipher s i).Drained := by
  obtain ⟨hclosing, hpending, hsenders⟩ := hs
  have hopen := isOpen_of_closing hclosing
  cases i with
  | init k => exact ⟨hclosing, hpending, hsenders⟩
  | sendPacket p =>
    have hstep : step cipher s (.sendPacket p) = s := if_neg (by rw [hopen]; decide)
    rw [hstep]
    exact ⟨hclosing, hpending, hsenders⟩
  | enqueue i =>
    have hstep : step cipher s (.enqueue i) = s := by
      simp only [step, hsenders, List.getElem?_nil, ite_self]
    rw [hstep]
    exact ⟨hclosing, hpending, hsenders⟩
  | update =>
    have hstep : step cipher s .update = s := if_pos (Or.inl hopen)
    rw [hstep]
    exact ⟨hclosing, hpending, hsenders⟩
  | round o o' =>
    unfold step
    simp only [writeHandler_of_closing s hclosing]
    split <;> exact ⟨hclosing, hpending, hsenders⟩
  | wrapper o o' =>
    unfold step
    simp only
    split
    · rw [writeHandler_of_closing { s with isWritingAsync := false } hclosing o o']
      exact ⟨hclosing, hpending, hsenders⟩
    · exact ⟨hclosing, hpending, hsenders⟩
  | closeSocket => exact ⟨hclosing, hpending, hsenders⟩
  | delayedCloseSocket => exact ⟨rfl, hpending, hsenders⟩

/-- A socket that is closed stays closed. -/
theorem closed_step (i : Input) (hs : s.Ordered) (hclosed : s.closed = true) :
    (step cipher s i).closed = true := by
  cases i with
  | sendPacket p =>
    unfold step
    simp only
    split <;> exact hclosed
  | enqueue i =>
    unfold step
    simp only
    split
    · exact hclosed
    · split
      · exact hclosed
      · next p _ => exact (enqueue_same { s with senders := s.senders.eraseIdx i } p).1.trans hclosed
  | update =>
    unfold step
    simp only
    split <;> exact hclosed
  | round o o' =>
    have hframe := (writeHandler_spec hs o o').1
    unfold step
    simp only
    split
    · exact hframe.closed.trans hclosed
    · exact hclosed
  | wrapper o o' =>
    have hwaits : Ordered { s with isWritingAsync := false } := ⟨hs.buffer, hs.queue⟩
    have hframe := (writeHandler_spec hwaits o o').1
    unfold step
    simp only
    split
    · exact hframe.closed.trans hclosed
    · exact hclosed
  | closeSocket => rfl
  | init k => exact hclosed
  | delayedCloseSocket => exact hclosed

/-- **Nothing is left to be written** in any run from here. -/
theorem flushes_of_drained (hs : s.closing = true ∧ s.Drained) (js : List Input) :
    Along (step cipher) (Flushes cipher) s js := by
  induction js generalizing s with
  | nil => trivial
  | cons j js ih =>
    have hnext := @drained_step κ cipher s j hs
    exact ⟨fun _ _ _ _ => hnext.2.1, ih hnext⟩

theorem flushes_of_closed (hs : s.Complete) (hclosed : s.closed = true) (js : List Input)
    (hjs : ∀ j ∈ js, j.Accepts) : Along (step cipher) (Flushes cipher) s js := by
  induction js generalizing s with
  | nil => trivial
  | cons j js ih =>
    have hkeeps := (hjs j List.mem_cons_self).keepsQueue s
    refine ⟨fun _ hopen => ?_, ih (complete_step hs hkeeps) (closed_step j hs.ordered hclosed)
      fun i hi => hjs i (List.mem_cons_of_mem j hi)⟩
    rw [hclosed] at hopen
    exact absurd hopen (by decide)

/-- A run in which nothing more is written: what is in the loop or waits comes to its end, a
sender comes in between, and `Update` comes last. -/
def lastWords : List Input :=
  [.round .wouldBlock .wouldBlock, .enqueue 0, .wrapper .wouldBlock .wouldBlock, .update]

/-- **What waits is not written** in such a run. -/
theorem not_flushes_of_waiting (hs : s.Ordered) (hclosing : s.closing = true)
    (hclosed : s.closed = false) (hwaits : ¬ s.Drained) :
    ¬ Along (step cipher) (Flushes cipher) s lastWords := by
  -- after the round nobody is in the loop
  obtain ⟨s₁, hs₁, hordered₁, hclosing₁, hclosed₁, hupdating₁, hwaits₁⟩ :
      ∃ s₁, step cipher s (.round .wouldBlock .wouldBlock) = s₁ ∧ s₁.Ordered ∧
        s₁.closing = true ∧ s₁.closed = false ∧ s₁.updating = false ∧ ¬ s₁.Drained := by
    refine ⟨_, rfl, ?_⟩
    unfold step
    simp only [writeHandler_of_closing s hclosing]
    split
    · exact ⟨⟨hs.buffer, hs.queue⟩, hclosing, hclosed, rfl, hwaits⟩
    · next hupdating => exact ⟨hs, hclosing, hclosed, by simpa using hupdating, hwaits⟩
  -- after the next step something waits
  obtain ⟨s₂, hs₂, hclosing₂, hclosed₂, hupdating₂, hpending₂⟩ :
      ∃ s₂, step cipher s₁ (.enqueue 0) = s₂ ∧ s₂.closing = true ∧ s₂.closed = false ∧
        s₂.updating = false ∧ s₂.pending ≠ [] := by
    refine ⟨_, rfl, ?_⟩
    unfold step
    simp only
    rw [if_neg (by rw [hupdating₁]; decide)]
    cases hsender : s₁.senders[0]? with
    | none =>
      refine ⟨hclosing₁, hclosed₁, hupdating₁, fun hpending => hwaits₁ ⟨hpending, ?_⟩⟩
      exact List.length_eq_zero_iff.mp (Nat.le_zero.mp (List.getElem?_eq_none_iff.mp hsender))
    | some p =>
      have hordered : Ordered { s₁ with senders := s₁.senders.eraseIdx 0 } :=
        ⟨hordered₁.buffer, hordered₁.queue⟩
      obtain ⟨hsame, hsame', hsame''⟩ := @enqueue_same κ cipher
        { s₁ with senders := s₁.senders.eraseIdx 0 } p
      refine ⟨hsame'.trans hclosing₁, hsame.trans hclosed₁, hsame''.trans hupdating₁, ?_⟩
      rw [(enqueue_spec cipher hordered p).2.1]
      have hpos := length_encrypt_pos cipher s₁.authCrypt p
      exact fun hnil => absurd (List.append_eq_nil_iff.mp hnil).2 (List.ne_nil_of_length_pos hpos)
  -- after the wait nothing is written any more
  obtain ⟨s₃, hs₃, hclosing₃, hclosed₃, hstopped, hpending₃⟩ :
      ∃ s₃, step cipher s₂ (.wrapper .wouldBlock .wouldBlock) = s₃ ∧ s₃.closing = true ∧
        s₃.closed = false ∧ s₃.Stopped ∧ s₃.pending ≠ [] := by
    refine ⟨_, rfl, ?_⟩
    unfold step
    simp only
    split
    · rw [writeHandler_of_closing { s₂ with isWritingAsync := false } hclosing₂]
      exact ⟨hclosing₂, hclosed₂, ⟨rfl, hupdating₂⟩, hpending₂⟩
    · next hno =>
      refine ⟨hclosing₂, hclosed₂, ⟨?_, hupdating₂⟩, hpending₂⟩
      by_contra hwriting
      exact hno ⟨by simpa using hwriting, hupdating₂⟩
  rintro ⟨-, -, -, hlast, -⟩
  rw [hs₁, hs₂, hs₃] at hlast
  have hupdate : step cipher s₃ .update = s₃ := if_pos (Or.inl (isOpen_of_closing hclosing₃))
  unfold Flushes at hlast
  rw [hupdate] at hlast
  exact hpending₃ (hlast hclosing₃ hclosed₃ trivial hstopped)

end Outgoing

/-! ## 2. The build with I/O completion ports -/

namespace Iocp

/-- The write half of a socket; `outstanding` is whether a write has been started and has not
completed. -/
structure Outgoing (κ : Type) where
  authCrypt : Option (AuthCrypt κ)
  writeQueue : List OutBuffer
  isWritingAsync : Bool
  outstanding : Bool
  closed : Bool
  closing : Bool
  senders : List Outbound
  accepted : Bytes
  encrypted : List Bytes

namespace Outgoing

def init : Outgoing κ where
  authCrypt := none
  writeQueue := []
  isWritingAsync := false
  outstanding := false
  closed := false
  closing := false
  senders := []
  accepted := []
  encrypted := []

def isOpen (s : Outgoing κ) : Bool := !s.closed && !s.closing

/-- `AsyncProcessQueue`: the packet at the front of the queue is written. -/
def asyncProcessQueue (s : Outgoing κ) : Outgoing κ :=
  if s.isWritingAsync then s else { s with isWritingAsync := true, outstanding := true }

/-- The locked part of `SendPacket`, with `QueuePacket`. -/
def enqueue (cipher : Cipher κ) (s : Outgoing κ) (p : Outbound) : Outgoing κ :=
  let r := encrypt cipher s.authCrypt p
  let buffer := (OutBuffer.ofSize (p.header.length + p.payload.length)).write r.1
  { s with
    authCrypt := r.2
    encrypted := s.encrypted ++ [r.1]
    writeQueue := s.writeQueue ++ [buffer] }.asyncProcessQueue

/-- `WriteHandler` for a write that has not failed. -/
def writeHandler (s : Outgoing κ) (transferedBytes : ℕ) : Outgoing κ :=
  match s.writeQueue with
  | [] => s
  | front :: queue =>
    let n := min front.getActiveSize transferedBytes
    let left := front.readCompleted n
    let s := { s with
      isWritingAsync := false
      accepted := s.accepted ++ front.unread.take n
      writeQueue := if left.getActiveSize = 0 then queue else left :: queue }
    if s.writeQueue ≠ [] then s.asyncProcessQueue
    else if s.closing then { s with closed := true }
    else s

inductive Input where
  | init (k : ℕ)
  | sendPacket (p : Outbound)
  | enqueue (i : ℕ)
  /-- `Update` does nothing here -/
  | update
  /-- the write completes: with so many bytes, or an error -/
  | completed (transferedBytes : Option ℕ)
  | closeSocket
  | delayedCloseSocket
deriving DecidableEq

def step (cipher : Cipher κ) (s : Outgoing κ) : Input → Outgoing κ
  | .init k => { s with authCrypt := some (cipher.init k) }
  | .sendPacket p => if s.isOpen then { s with senders := s.senders ++ [p] } else s
  | .enqueue i =>
    match s.senders[i]? with
    | none => s
    | some p => { s with senders := s.senders.eraseIdx i }.enqueue cipher p
  | .update => s
  | .completed transferedBytes =>
    if s.outstanding then
      match transferedBytes with
      | none => { s with outstanding := false, closed := true }
      | some n => { s with outstanding := false }.writeHandler n
    else s
  | .closeSocket => { s with closed := true }
  | .delayedCloseSocket => { s with closing := true }

def pending (s : Outgoing κ) : Bytes := (s.writeQueue.map OutBuffer.unread).flatten

/-- The kernel takes bytes. -/
def Input.Accepts : Input → Prop
  | .completed transferedBytes => ∃ n ∈ transferedBytes, 0 < n
  | _ => True

/-- `Update` or `WriteHandler` runs. -/
def Runs (s : Outgoing κ) : Input → Prop
  | .update => True
  | .completed _ => s.outstanding = true
  | _ => False

/-- On a socket marked for closing, and not closed yet, no step of `Update` or `WriteHandler`
stops writing, or closes the socket, while bytes wait. -/
def Flushes (cipher : Cipher κ) (s : Outgoing κ) (i : Input) : Prop :=
  s.closing = true → s.closed = false → s.Runs i →
    (step cipher s i).outstanding = false ∨ (step cipher s i).closed = true →
      (step cipher s i).pending = []

/-- How many writes complete. -/
def completions (is : List Input) : ℕ :=
  (is.filter fun i => match i with | .completed _ => true | _ => false).length

/-- As long as no write fails: a write is outstanding while bytes wait, and what is encrypted is
written or waits. -/
structure Sending (s : Outgoing κ) : Prop where
  flag : s.isWritingAsync = s.outstanding
  queue : ∀ m ∈ s.writeQueue, m.Sound ∧ 0 < m.getActiveSize
  writes : s.outstanding = true ↔ s.writeQueue ≠ []
  all : s.accepted ++ s.pending = s.encrypted.flatten

theorem sending_init : (init : Outgoing κ).Sending := by
  refine ⟨rfl, fun m hm => absurd hm List.not_mem_nil, ?_, rfl⟩
  exact iff_of_false Bool.false_ne_true fun h => h rfl

variable {s : Outgoing κ}

/-- **A completed write** has taken bytes from the front, and the next one is started, or nothing
is left. -/
theorem writeHandler_spec (hs : s.Sending) (hwrites : s.outstanding = true) {n : ℕ} (hn : 0 < n) :
    ({ s with outstanding := false }.writeHandler n).Sending ∧
      ({ s with outstanding := false }.writeHandler n).encrypted = s.encrypted ∧
      s.accepted.length < ({ s with outstanding := false }.writeHandler n).accepted.length ∧
      (({ s with outstanding := false }.writeHandler n).closed = true → s.closed = false →
        ({ s with outstanding := false }.writeHandler n).pending = []) := by
  have hall := hs.all
  cases hqueue : s.writeQueue with
  | nil => exact absurd hqueue (hs.writes.mp hwrites)
  | cons front queue =>
    obtain ⟨hsound, hactive⟩ := hs.queue front (hqueue ▸ List.mem_cons_self)
    have hqueues : ∀ m ∈ queue, m.Sound ∧ 0 < m.getActiveSize := fun m hm =>
      hs.queue m (hqueue ▸ List.mem_cons_of_mem _ hm)
    have hlength := front.length_unread
    unfold writeHandler
    simp only
    generalize hk : min front.getActiveSize n = k
    have hgrows : s.accepted.length < (s.accepted ++ front.unread.take k).length := by
      rw [List.length_append, List.length_take]
      omega
    rw [pending, hqueue, List.map_cons, List.flatten_cons] at hall
    by_cases hwhole : (front.readCompleted k).getActiveSize = 0
    · have htake : front.unread.take k = front.unread := by
        refine List.take_of_length_le ?_
        unfold OutBuffer.readCompleted OutBuffer.getActiveSize at hwhole
        unfold OutBuffer.getActiveSize at hlength
        simp only at hwhole
        omega
      rw [if_pos hwhole]
      rw [htake] at hgrows ⊢
      have hrest : (s.accepted ++ front.unread) ++ (queue.map OutBuffer.unread).flatten =
          s.encrypted.flatten := by rw [List.append_assoc, hall]
      by_cases hlast : queue = []
      · subst hlast
        simp only [ne_eq, not_true_eq_false, if_false]
        split
        · exact ⟨⟨rfl, hqueues, iff_of_false Bool.false_ne_true fun h => h rfl, hrest⟩, rfl, hgrows,
            fun _ _ => rfl⟩
        · exact ⟨⟨rfl, hqueues, iff_of_false Bool.false_ne_true fun h => h rfl, hrest⟩, rfl, hgrows,
            fun _ _ => rfl⟩
      · simp only [ne_eq, hlast, not_false_eq_true, if_true]
        refine ⟨⟨rfl, hqueues, iff_of_true rfl hlast, hrest⟩, rfl, hgrows, fun hclosed hopen => ?_⟩
        exact absurd (hclosed.symm.trans hopen) Bool.noConfusion
    · rw [if_neg hwhole]
      have hrest : (s.accepted ++ front.unread.take k) ++
          (((front.readCompleted k) :: queue).map OutBuffer.unread).flatten =
            s.encrypted.flatten := by
        rw [List.map_cons, List.flatten_cons, OutBuffer.unread_readCompleted, List.append_assoc,
          ← List.append_assoc (List.take _ _), List.take_append_drop, hall]
      simp only [ne_eq, List.cons_ne_nil, not_false_eq_true, if_true]
      refine ⟨⟨rfl, fun m hm => ?_, iff_of_true rfl (List.cons_ne_nil _ _), hrest⟩, rfl, hgrows,
        fun hclosed hopen => ?_⟩
      · rcases List.mem_cons.mp hm with rfl | hm
        · refine ⟨?_, Nat.pos_of_ne_zero hwhole⟩
          unfold OutBuffer.Sound OutBuffer.readCompleted OutBuffer.getActiveSize at *
          simp only
          omega
        · exact hqueues m hm
      · exact absurd (hclosed.symm.trans hopen) Bool.noConfusion

theorem enqueue_spec (cipher : Cipher κ) (hs : s.Sending) (p : Outbound) :
    (s.enqueue cipher p).Sending ∧ (s.enqueue cipher p).accepted = s.accepted ∧
      (s.enqueue cipher p).encrypted = s.encrypted ++ [(encrypt cipher s.authCrypt p).1] := by
  have hpos := length_encrypt_pos cipher s.authCrypt p
  have hall := hs.all
  unfold enqueue
  simp only
  generalize encrypt cipher s.authCrypt p = r at hpos ⊢
  generalize hnew : (OutBuffer.ofSize (p.header.length + p.payload.length)).write r.1 = buffer
  have hunread : buffer.unread = r.1 := by
    rw [← hnew]
    rfl
  have hqueue : ∀ m ∈ s.writeQueue ++ [buffer], m.Sound ∧ 0 < m.getActiveSize := by
    intro m hm
    rcases List.mem_append.mp hm with hm | hm
    · exact hs.queue m hm
    · rw [List.mem_singleton.mp hm, ← OutBuffer.length_unread, hunread, ← hnew]
      exact ⟨Nat.zero_le _, hpos⟩
  have hrest : s.accepted ++ ((s.writeQueue ++ [buffer]).map OutBuffer.unread).flatten =
      (s.encrypted ++ [r.1]).flatten := by
    rw [List.map_append, List.flatten_append, ← List.append_assoc, List.flatten_append,
      List.flatten_singleton, ← hall]
    simp [pending, hunread]
  have hsome : s.writeQueue ++ [buffer] ≠ [] := by simp
  unfold asyncProcessQueue
  simp only
  split
  · next hflag =>
    exact ⟨⟨hs.flag, hqueue, iff_of_true (hs.flag.symm.trans hflag) hsome, hrest⟩, rfl, rfl⟩
  · exact ⟨⟨rfl, hqueue, iff_of_true rfl hsome, hrest⟩, rfl, rfl⟩

/-- **A step** while the kernel takes bytes: what is accepted and what is encrypted only grow, and
a write that completes has taken bytes. -/
theorem sending_step (cipher : Cipher κ) {i : Input} (hi : i.Accepts) (hs : s.Sending) :
    (step cipher s i).Sending ∧ s.encrypted.flatten <+: (step cipher s i).encrypted.flatten ∧
      s.accepted.length ≤ (step cipher s i).accepted.length ∧
      (∀ result, i = .completed result → s.outstanding = true →
        s.accepted.length < (step cipher s i).accepted.length) := by
  cases i with
  | init k =>
    exact ⟨⟨hs.flag, hs.queue, hs.writes, hs.all⟩, List.prefix_rfl, le_rfl, fun _ h => nomatch h⟩
  | sendPacket p =>
    unfold step
    simp only
    split
    · exact ⟨⟨hs.flag, hs.queue, hs.writes, hs.all⟩, List.prefix_rfl, le_rfl, fun _ h => nomatch h⟩
    · exact ⟨hs, List.prefix_rfl, le_rfl, fun _ h => nomatch h⟩
  | enqueue i =>
    unfold step
    simp only
    split
    · exact ⟨hs, List.prefix_rfl, le_rfl, fun _ h => nomatch h⟩
    · next p _ =>
      have hready : Sending { s with senders := s.senders.eraseIdx i } :=
        ⟨hs.flag, hs.queue, hs.writes, hs.all⟩
      obtain ⟨hsending, haccepted, hencrypted⟩ := enqueue_spec cipher hready p
      refine ⟨hsending, ?_, ?_, fun _ h => nomatch h⟩
      · rw [hencrypted, List.flatten_append]
        exact List.prefix_append _ _
      · rw [haccepted]
  | update => exact ⟨hs, List.prefix_rfl, le_rfl, fun _ h => nomatch h⟩
  | completed result =>
    obtain ⟨n, hresult, hn⟩ := hi
    rw [Option.mem_def] at hresult
    subst hresult
    by_cases hwrites : s.outstanding = true
    · have hstep : step cipher s (.completed (some n)) =
          { s with outstanding := false }.writeHandler n := if_pos hwrites
      obtain ⟨hsending, hencrypted, hgrows, -⟩ := writeHandler_spec hs hwrites hn
      rw [hstep, hencrypted]
      exact ⟨hsending, List.prefix_rfl, le_of_lt hgrows, fun _ _ _ => hgrows⟩
    · have hstep : step cipher s (.completed (some n)) = s := if_neg hwrites
      rw [hstep]
      exact ⟨hs, List.prefix_rfl, le_rfl, fun _ _ h => absurd h hwrites⟩
  | closeSocket =>
    exact ⟨⟨hs.flag, hs.queue, hs.writes, hs.all⟩, List.prefix_rfl, le_rfl, fun _ h => nomatch h⟩
  | delayedCloseSocket =>
    exact ⟨⟨hs.flag, hs.queue, hs.writes, hs.all⟩, List.prefix_rfl, le_rfl, fun _ h => nomatch h⟩

/-- Bytes that wait have a write outstanding. -/
theorem Sending.pending_eq_nil (hs : s.Sending) (hstopped : s.outstanding = false) :
    s.pending = [] := by
  have hempty : s.writeQueue = [] := by
    by_contra hne
    rw [hs.writes.mpr hne] at hstopped
    exact Bool.noConfusion hstopped
  rw [pending, hempty]
  rfl

theorem flushes_step {cipher : Cipher κ} {i : Input} (hi : i.Accepts) (hs : s.Sending) :
    Flushes cipher s i := by
  intro _ hopen hruns hends
  rcases hends with hstopped | hclosed
  · exact (sending_step cipher hi hs).1.pending_eq_nil hstopped
  · cases i with
    | update => exact absurd (hclosed.symm.trans hopen) Bool.noConfusion
    | completed result =>
      obtain ⟨n, hresult, hn⟩ := hi
      rw [Option.mem_def] at hresult
      subst hresult
      have hstep : step cipher s (.completed (some n)) =
          { s with outstanding := false }.writeHandler n := if_pos hruns
      rw [hstep] at hclosed ⊢
      exact (writeHandler_spec hs hruns hn).2.2.2 hclosed hopen
    | _ => exact hruns.elim

/-- **Each write that completes brings the bytes `bs` nearer to their end.** -/
theorem accepted_of_completions (cipher : Cipher κ) {bs : Bytes} : ∀ {later : List Input}
    {s : Outgoing κ}, (∀ i ∈ later, i.Accepts) → s.Sending → bs <+: s.encrypted.flatten →
      min bs.length (s.accepted.length + completions later) ≤
          (exec (step cipher) s later).accepted.length ∧
        (exec (step cipher) s later).Sending ∧
        bs <+: (exec (step cipher) s later).encrypted.flatten
  | [], s, _, hs, hbs => ⟨Nat.min_le_right _ _, hs, hbs⟩
  | i :: later, s, hlater, hs, hbs => by
    obtain ⟨hsending, hgrows, hless, hmore⟩ :=
      sending_step cipher (hlater i List.mem_cons_self) hs
    obtain ⟨hmin, hlast, hprefix⟩ := accepted_of_completions cipher
      (fun j hj => hlater j (List.mem_cons_of_mem i hj)) hsending (hbs.trans hgrows)
    rw [exec_cons]
    refine ⟨?_, hlast, hprefix⟩
    cases i with
    | completed result =>
      have hcount : completions (.completed result :: later) = completions later + 1 := rfl
      rw [hcount]
      by_cases hwrites : s.outstanding = true
      · have := hmore result rfl hwrites
        omega
      · -- nothing waits, so all of `bs` is accepted
        have hall := hs.all
        rw [hs.pending_eq_nil (by simpa using hwrites), List.append_nil] at hall
        have := hbs.length_le
        rw [← hall] at this
        omega
    | _ =>
      have hcount := Nat.add_le_add_right hless (completions later)
      exact le_trans (Nat.le_min.mpr ⟨Nat.min_le_left _ _, le_trans (Nat.min_le_right _ _) hcount⟩)
        hmin

end Outgoing

end Iocp

/-! ## 3. Both -/

/-- **What is sent before the socket is marked for closing.**  Without completion ports it is
written, in every run from there in which the kernel takes bytes, exactly when all of it is
written already.  With them it is written, as soon as so many writes have completed as there were
bytes waiting, and the socket is not closed before. -/
theorem delayedClose_flushes (cipher : Cipher κ) (is : List Outgoing.Input)
    (his : ∀ i ∈ is, i.Accepts) (js : List Iocp.Outgoing.Input) (hjs : ∀ j ∈ js, j.Accepts) :
    ((∀ later : List Outgoing.Input, (∀ i ∈ later, i.Accepts) →
        Along (Outgoing.step cipher) (Outgoing.Flushes cipher)
          (Outgoing.step cipher (exec (Outgoing.step cipher) .init is) .delayedCloseSocket) later) ↔
      (exec (Outgoing.step cipher) .init is).closed = true ∨
        (exec (Outgoing.step cipher) .init is).Drained) ∧
    Along (Iocp.Outgoing.step cipher) (Iocp.Outgoing.Flushes cipher) .init js ∧
    (∀ later : List Iocp.Outgoing.Input, (∀ j ∈ later, j.Accepts) →
      (exec (Iocp.Outgoing.step cipher) .init js).pending.length ≤
          Iocp.Outgoing.completions later →
        (exec (Iocp.Outgoing.step cipher) .init js).encrypted.flatten <+:
          (exec (Iocp.Outgoing.step cipher) (exec (Iocp.Outgoing.step cipher) .init js)
            later).accepted) := by
  refine ⟨?_, ?_, ?_⟩
  · have hcomplete := Outgoing.complete_of_accepts cipher his
    generalize exec (Outgoing.step cipher) .init is = s at hcomplete ⊢
    have hmarked : (Outgoing.step cipher s .delayedCloseSocket).Complete :=
      Outgoing.complete_step hcomplete trivial
    constructor
    · intro hflushes
      by_contra hno
      have hwaits : ¬ s.Drained := fun h => hno (Or.inr h)
      have hopen : s.closed = false := by
        by_contra hclosed
        exact hno (Or.inl (by simpa using hclosed))
      refine Outgoing.not_flushes_of_waiting hmarked.ordered rfl hopen hwaits
        (hflushes Outgoing.lastWords fun i hi => ?_)
      simp only [Outgoing.lastWords, List.mem_cons, List.not_mem_nil, or_false] at hi
      rcases hi with rfl | rfl | rfl | rfl
      · exact ⟨id, id⟩
      · trivial
      · exact ⟨id, id⟩
      · trivial
    · rintro (hclosed | hdrained) later hlater
      · exact Outgoing.flushes_of_closed hmarked hclosed later hlater
      · have hstays : (Outgoing.step cipher s .delayedCloseSocket).closing = true ∧
            (Outgoing.step cipher s .delayedCloseSocket).Drained := ⟨rfl, hdrained⟩
        exact Outgoing.flushes_of_drained hstays later
  · have hstep : ∀ (s : Iocp.Outgoing κ) (i : Iocp.Outgoing.Input), i.Accepts → s.Sending →
        (True → (Iocp.Outgoing.step cipher s i).Sending) := fun s i hi hs _ =>
      (Iocp.Outgoing.sending_step cipher hi hs).1
    exact (along_congr (I := Iocp.Outgoing.Sending) (P := fun _ _ => True)
      (B := Iocp.Outgoing.Input.Accepts) hstep
      (fun s i hi hs => iff_of_true trivial (Iocp.Outgoing.flushes_step hi hs)) hjs
      Iocp.Outgoing.sending_init).mp (along_of_forall fun _ _ => trivial)
  · intro later hlater hcount
    have hstep : ∀ (s : Iocp.Outgoing κ) (i : Iocp.Outgoing.Input), i.Accepts → s.Sending →
        (Iocp.Outgoing.step cipher s i).Sending := fun s i hi hs =>
      (Iocp.Outgoing.sending_step cipher hi hs).1
    have hsending := exec_invariant_of_mem hstep hjs Iocp.Outgoing.sending_init
    generalize exec (Iocp.Outgoing.step cipher) .init js = s at hsending hcount ⊢
    obtain ⟨hmin, hlast, hprefix⟩ :=
      Iocp.Outgoing.accepted_of_completions cipher hlater hsending List.prefix_rfl
    have hlength := congrArg List.length hsending.all
    rw [List.length_append] at hlength
    refine List.prefix_of_prefix_length_le hprefix ⟨_, hlast.all⟩ ?_
    omega

/-- The response a client is sent before its socket is marked for closing. -/
def refusal : Outbound := ⟨0x1EE, [13]⟩

theorem delayedClose_flushes_refusal :
    ((∀ later : List Outgoing.Input, (∀ i ∈ later, i.Accepts) →
        Along (Outgoing.step .plain) (Outgoing.Flushes .plain)
          (Outgoing.step .plain (exec (Outgoing.step .plain) .init
            [.sendPacket refusal, .enqueue 0, .update, .round (.written 5) .wouldBlock])
              .delayedCloseSocket) later) ↔
      (exec (Outgoing.step .plain) .init
          [.sendPacket refusal, .enqueue 0, .update, .round (.written 5) .wouldBlock]).closed =
            true ∨
        (exec (Outgoing.step .plain) .init
          [.sendPacket refusal, .enqueue 0, .update,
            .round (.written 5) .wouldBlock]).Drained) ∧
    Along (Iocp.Outgoing.step .plain) (Iocp.Outgoing.Flushes .plain) .init
      [.sendPacket refusal, .enqueue 0, .delayedCloseSocket, .completed (some 2)] ∧
    (∀ later : List Iocp.Outgoing.Input, (∀ j ∈ later, j.Accepts) →
      (exec (Iocp.Outgoing.step .plain) .init
          [.sendPacket refusal, .enqueue 0, .delayedCloseSocket, .completed (some 2)]).pending.length ≤
          Iocp.Outgoing.completions later →
        (exec (Iocp.Outgoing.step .plain) .init
            [.sendPacket refusal, .enqueue 0, .delayedCloseSocket,
              .completed (some 2)]).encrypted.flatten <+:
          (exec (Iocp.Outgoing.step .plain) (exec (Iocp.Outgoing.step .plain) .init
            [.sendPacket refusal, .enqueue 0, .delayedCloseSocket, .completed (some 2)])
              later).accepted) := by
  refine delayedClose_flushes .plain _ (fun i hi => ?_) _ fun j hj => ?_
  · simp only [List.mem_cons, List.not_mem_nil, or_false] at hi
    rcases hi with rfl | rfl | rfl | rfl
    · trivial
    · trivial
    · trivial
    · exact ⟨by decide, by decide⟩
  · simp only [List.mem_cons, List.not_mem_nil, or_false] at hj
    rcases hj with rfl | rfl | rfl | rfl
    · trivial
    · trivial
    · trivial
    · exact ⟨2, rfl, by decide⟩

/-- **The response is never written.**  It waits in the write buffer when the socket is marked for
closing; `Update` returns at once. -/
theorem refusal_not_flushed :
    ¬ ∀ later : List Outgoing.Input, (∀ i ∈ later, i.Accepts) →
      Along (Outgoing.step .plain) (Outgoing.Flushes .plain)
        (Outgoing.step .plain (exec (Outgoing.step .plain) .init
          [.sendPacket refusal, .enqueue 0]) .delayedCloseSocket) later := by
  intro h
  have hupdate := (h [.update] fun i hi => by rw [List.mem_singleton.mp hi]; trivial).1
  exact absurd (hupdate (by decide) (by decide) trivial ⟨by decide, by decide⟩) (by decide)

end HungerGames.World
