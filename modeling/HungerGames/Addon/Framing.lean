/-
# Framing of add-on messages (`Utility.lua` against `MainFrame.lua`)

`sendAddonMessage` cuts a message into chunks and whispers each in a frame of its own; the
client's `eventHandlerMainFrame` puts the frames of one packet number together again.  The
reassembly is right: whatever chunks are framed, the client ends with their concatenation,
once, and with nothing pending.  The cut is not: every chunk but the last is taken as
`msg:sub(i, i + splitLength)`, whose bounds are both included, so it has one byte more than
the loop steps by, and that byte is sent again at the start of the next chunk.

So a message arrives intact exactly when it fits one frame
(`roundTrip_iff_length_le`).
-/
import HungerGames.Addon.Client

namespace HungerGames.Addon

open HungerGames.Lua

/-! ## 1. `sendAddonMessage` -/

/-- `local splitLength = 240` -/
def splitLength : ℕ := 240

/-- The header of a frame and its chunk. -/
def frame (packet counter splits : ℕ) (chunk : Bytes) : Bytes :=
  formatZero 3 packet ++ formatZero 2 counter ++ formatZero 2 splits ++ chunk

/-- The chunk the loop takes at `i`. -/
def chunkAt (msg : Bytes) (i : ℕ) : Bytes :=
  if i + splitLength > msg.length then sub msg i msg.length else sub msg i (i + splitLength)

/-- `math.ceil(msg:len() / splitLength)` -/
def splits (msg : Bytes) : ℕ := (msg.length + (splitLength - 1)) / splitLength

/-- `sendAddonMessage(plr, msg, packet)`: the frames, in the order they are sent. -/
def sendAddonMessage (msg : Bytes) (packet : ℕ) : List Bytes :=
  ((forRange 1 msg.length splitLength).zipIdx 1).map fun ic =>
    frame packet ic.2 (splits msg) (chunkAt msg ic.1)

/-! ## 2. The cut -/

/-- The chunks of a message. -/
def chunks (msg : Bytes) : List Bytes := (forRange 1 msg.length splitLength).map (chunkAt msg)

/-- The frames of a list of chunks, the first with the number `counter`. -/
def frames (packet n counter : ℕ) (cs : List Bytes) : List Bytes :=
  (cs.zipIdx counter).map fun cc => frame packet cc.2 n cc.1

theorem sendAddonMessage_eq (msg : Bytes) (packet : ℕ) :
    sendAddonMessage msg packet = frames packet (splits msg) 1 (chunks msg) := by
  unfold sendAddonMessage frames chunks
  rw [List.zipIdx_map, List.map_map]
  rfl

variable {msg : Bytes}

theorem chunks_eq (hmsg : msg ≠ []) :
    chunks msg = (List.range (splits msg)).map fun k => chunkAt msg (1 + splitLength * k) := by
  have hpos : 1 ≤ msg.length := List.length_pos_iff.mpr hmsg
  have hcount : (msg.length - 1) / splitLength + 1 = splits msg := by
    unfold splits splitLength
    omega
  unfold chunks forRange
  rw [if_pos hpos, hcount, List.map_map]
  rfl

/-- **One byte too many.**  Every chunk but the last has `splitLength + 1` bytes. -/
theorem length_chunkAt {k : ℕ} (hk : k < splits msg) :
    (chunkAt msg (1 + splitLength * k)).length
      = if k + 1 < splits msg then splitLength + 1 else msg.length - splitLength * k := by
  unfold chunkAt splits splitLength at *
  split <;> split <;> rw [length_sub] <;> omega

theorem splits_le (hlen : msg.length ≤ 99 * splitLength) : splits msg ≤ 99 := by
  unfold splits splitLength at *
  omega

theorem splits_pos (hmsg : msg ≠ []) : 0 < splits msg := by
  have hpos := List.length_pos_iff.mpr hmsg
  unfold splits splitLength
  omega

/-- No chunk is empty, so every frame matches the client's pattern. -/
theorem chunkAt_ne_nil {k : ℕ} (hk : k < splits msg) : chunkAt msg (1 + splitLength * k) ≠ [] := by
  have h := length_chunkAt hk
  intro hnil
  rw [hnil] at h
  unfold splits splitLength at *
  split at h <;> simp only [List.length_nil] at h <;> omega

theorem length_flatten_range (f : ℕ → Bytes) : ∀ n,
    ((List.range n).map f).flatten.length = ((List.range n).map fun k => (f k).length).sum
  | n => by simp [List.length_flatten, List.map_map, Function.comp_def]

/-- **The cost of the cut.**  The chunks together have one byte more than the message for
every cut that was made. -/
theorem length_flatten_chunks (hmsg : msg ≠ []) :
    (chunks msg).flatten.length = msg.length + (splits msg - 1) := by
  have hsum : ∀ n, n < splits msg →
      ((List.range n).map fun k => (chunkAt msg (1 + splitLength * k)).length).sum
        = (splitLength + 1) * n := by
    intro n
    induction n with
    | zero => simp
    | succ n ih =>
      intro hn
      rw [List.range_succ, List.map_append, List.sum_append, ih (by omega), List.map_singleton,
        List.sum_singleton, length_chunkAt (by omega), if_pos hn, Nat.mul_succ]
  obtain ⟨n, hn⟩ := Nat.exists_eq_add_of_le' (splits_pos hmsg)
  rw [chunks_eq hmsg, length_flatten_range, hn, List.range_succ, List.map_append,
    List.sum_append, hsum n (by omega), List.map_singleton, List.sum_singleton,
    length_chunkAt (by omega), if_neg (by omega)]
  unfold splits splitLength at *
  omega

/-- A message that fits one frame is one chunk, itself. -/
theorem chunks_of_length_le (hmsg : msg ≠ []) (hlen : msg.length ≤ splitLength) :
    chunks msg = [msg] := by
  have hpos := List.length_pos_iff.mpr hmsg
  have hone : splits msg = 1 := by
    unfold splits splitLength at *
    omega
  rw [chunks_eq hmsg, hone]
  have hfirst : chunkAt msg 1 = msg := by
    unfold chunkAt
    rw [if_pos (by omega)]
    simp [sub]
  simpa using hfirst

/-! ## 3. The reassembly -/

variable {packet : ℕ}

theorem matchHere_frame {counter n : ℕ} {chunk : Bytes} (hp : packet < 1000) (hc : counter < 100)
    (hn : n < 100) (hne : chunk ≠ []) :
    matchHere (frame packet counter n chunk) = some ⟨packet, counter, n, chunk⟩ := by
  obtain ⟨lp, dp, vp⟩ := formatZero_three packet hp
  obtain ⟨lc, dc, vc⟩ := formatZero_two counter hc
  obtain ⟨ln, dn, vn⟩ := formatZero_two n hn
  have hpos := List.length_pos_iff.mpr hne
  have h7 : (frame packet counter n chunk).take 7
      = formatZero 3 packet ++ formatZero 2 counter ++ formatZero 2 n := by
    exact List.take_left' (by simp [lp, lc, ln])
  have h3 : (frame packet counter n chunk).take 3 = formatZero 3 packet := by
    unfold frame
    rw [List.append_assoc, List.append_assoc]
    exact List.take_left' lp
  have d3 : (frame packet counter n chunk).drop 3
      = formatZero 2 counter ++ (formatZero 2 n ++ chunk) := by
    unfold frame
    rw [List.append_assoc, List.append_assoc]
    exact List.drop_left' lp
  have d5 : (frame packet counter n chunk).drop 5 = formatZero 2 n ++ chunk := by
    unfold frame
    rw [List.append_assoc]
    exact List.drop_left' (by simp [lp, lc])
  have d7 : (frame packet counter n chunk).drop 7 = chunk := by
    exact List.drop_left' (by simp [lp, lc, ln])
  unfold matchHere
  rw [h7, h3, d3, d5, d7, if_pos, List.take_left' lc, List.take_left' ln, vp, vc, vn]
  refine ⟨by simp [List.all_append, dp, dc, dn], ?_⟩
  simp only [frame, List.length_append, lp, lc, ln]
  omega

theorem matchFrame_frame {counter n : ℕ} {chunk : Bytes} (hp : packet < 1000) (hc : counter < 100)
    (hn : n < 100) (hne : chunk ≠ []) :
    matchFrame (frame packet counter n chunk) = some ⟨packet, counter, n, chunk⟩ := by
  have h := matchHere_frame hp hc hn hne
  cases hf : frame packet counter n chunk with
  | nil => rw [hf] at h; simp [matchHere] at h
  | cons b s =>
    rw [hf] at h
    rw [matchFrame, h]
    rfl

/-- `table.concat` of a list. -/
theorem concat_ofList (L : Layout) (cs : List Bytes) :
    concat L (Table.ofList cs) = some cs.flatten := by
  unfold concat
  rw [Table.length_ofList, Table.mapM_get_ofList]
  rfl

/-- **One frame.**  With the chunks `done` pending, the next frame is stored, or, when it
is the last, the message is acted on and nothing stays pending. -/
theorem eventHandlerMainFrame_frame (L : Layout) (c : Client) {n : ℕ} {done : List Bytes}
    {chunk : Bytes} (hp : packet < 1000) (hd : done.length + 1 ≤ n) (hn : n < 100)
    (hne : chunk ≠ []) (hpend : c.pending packet = ⟨done.length, Table.ofList done⟩) :
    let r := eventHandlerMainFrame L c (bytes "CHAT_MSG_ADDON")
      (frame packet (done.length + 1) n chunk) c.unitName
    if done.length + 1 = n then r.2 = some (done ++ [chunk]).flatten ∧ r.1.Idle packet
    else r.2 = none ∧ r.1.pending packet = ⟨done.length + 1, Table.ofList (done ++ [chunk])⟩ := by
  unfold eventHandlerMainFrame
  simp only [and_self, if_true, matchFrame_frame hp (by omega : done.length + 1 < 100) hn hne,
    hpend, Table.set_ofList]
  by_cases hlast : done.length + 1 = n
  · simp only [hlast, ne_eq, not_true_eq_false, if_false, if_true, concat_ofList]
    exact ⟨trivial, by simp [Client.Idle]⟩
  · simp only [ne_eq, hlast, not_false_eq_true, if_true, if_false, Client.pending_setLinks]
    exact ⟨trivial, trivial⟩

/-- The frames delivered so far leave their chunks pending, and the last one completes the
message. -/
theorem deliver_frames (L : Layout) {n : ℕ} (hp : packet < 1000) (hn : n < 100) :
    ∀ (rest done : List Bytes) (c : Client), rest ≠ [] → (∀ x ∈ rest, x ≠ []) →
      done.length + rest.length = n → c.pending packet = ⟨done.length, Table.ofList done⟩ →
      (deliver L c (frames packet n (done.length + 1) rest)).2 = [(done ++ rest).flatten] ∧
        (deliver L c (frames packet n (done.length + 1) rest)).1.Idle packet
  | [], _, _, h, _, _, _ => absurd rfl h
  | chunk :: rest, done, c, _, hne, hlen, hpend => by
    have hlen' : done.length + (rest.length + 1) = n := hlen
    have hstep := eventHandlerMainFrame_frame L c hp (by omega) hn
      (hne chunk List.mem_cons_self) hpend
    have hframes : frames packet n (done.length + 1) (chunk :: rest)
        = frame packet (done.length + 1) n chunk :: frames packet n (done.length + 2) rest := rfl
    rw [hframes]
    simp only [deliver]
    cases rest with
    | nil =>
      rw [if_pos (by simpa using hlen')] at hstep
      obtain ⟨hout, hidle⟩ := hstep
      rw [hout]
      exact ⟨rfl, hidle⟩
    | cons chunk' rest =>
      rw [if_neg (by simp only [List.length_cons] at hlen'; omega)] at hstep
      obtain ⟨hout, hpend'⟩ := hstep
      have hdone : (done ++ [chunk]).length = done.length + 1 := by simp
      have ih := deliver_frames L hp hn (chunk' :: rest) (done ++ [chunk]) _ (by simp)
        (fun x hx => hne x (List.mem_cons_of_mem _ hx))
        (by rw [hdone]; omega) (by rw [hdone]; exact hpend')
      rw [hdone] at ih
      rw [hout]
      simpa using ih

/-- **What arrives**: the chunks put together, once, and nothing stays pending. -/
theorem deliver_sendAddonMessage (L : Layout) {c : Client} (hmsg : msg ≠ [])
    (hlen : msg.length ≤ 99 * splitLength) (hp : packet ≤ 999) (hidle : c.Idle packet) :
    (deliver L c (sendAddonMessage msg packet)).2 = [(chunks msg).flatten] ∧
      (deliver L c (sendAddonMessage msg packet)).1.Idle packet := by
  have hpos := splits_pos hmsg
  have hcount : (chunks msg).length = splits msg := by simp [chunks_eq hmsg]
  have hne : ∀ x ∈ chunks msg, x ≠ [] := by
    intro x hx
    rw [chunks_eq hmsg, List.mem_map] at hx
    obtain ⟨k, hk, rfl⟩ := hx
    exact chunkAt_ne_nil (List.mem_range.mp hk)
  rw [sendAddonMessage_eq]
  exact deliver_frames L (by omega) (by have := splits_le hlen; omega) (chunks msg) [] c
    (fun h => by rw [h] at hcount; exact absurd hcount (by simp; omega)) hne
    (by simpa using hcount) hidle

/-! ## 4. The round trip -/

/-- **The round trip holds exactly for the messages of one frame.** -/
theorem roundTrip_iff_length_le (L : Layout) (c : Client) (msg : Bytes) (packet : ℕ)
    (hmsg : msg ≠ []) (hlen : msg.length ≤ 99 * 240) (hp : packet ≤ 999)
    (hidle : c.Idle packet) :
    ((deliver L c (sendAddonMessage msg packet)).2 = [msg] ∧
        (deliver L c (sendAddonMessage msg packet)).1.Idle packet) ↔
      msg.length ≤ 240 := by
  obtain ⟨hout, hidle'⟩ := deliver_sendAddonMessage L hmsg hlen hp hidle
  rw [hout]
  constructor
  · rintro ⟨h, -⟩
    have hlen' := length_flatten_chunks hmsg
    rw [List.singleton_inj.mp h] at hlen'
    have hpos := splits_pos hmsg
    unfold splits splitLength at *
    omega
  · intro h
    rw [chunks_of_length_le hmsg h]
    exact ⟨by simp, hidle'⟩

/-- A client that has just loaded its interface. -/
def Client.fresh (unitName : Bytes) : Client where
  unitName := unitName
  links _ := none
  onlinePlayers := Table.empty
  inGame := false
  selectedPerks := Table.empty
  reloaded := false

theorem roundTrip_iff_length_le_reset :
    ((deliver Layout.plain (Client.fresh []) (sendAddonMessage (bytes "RESET") 3)).2
        = [bytes "RESET"] ∧
      (deliver Layout.plain (Client.fresh []) (sendAddonMessage (bytes "RESET") 3)).1.Idle 3) ↔
    (bytes "RESET").length ≤ 240 :=
  roundTrip_iff_length_le Layout.plain (Client.fresh []) (bytes "RESET") 3 (by decide) (by decide)
    (by decide) rfl

/-- 240 times `a` and a `b`. -/
def overlong : Bytes := List.replicate 240 97 ++ [98]

/-- The `b` of `overlong` arrives twice. -/
theorem sendAddonMessage_repeats_byte :
    overlong ≠ [] ∧ overlong.length ≤ 99 * 240 ∧ (Client.fresh []).Idle 1 ∧
      (deliver Layout.plain (Client.fresh []) (sendAddonMessage overlong 1)).2
        = [overlong ++ [98]] ∧
      (deliver Layout.plain (Client.fresh []) (sendAddonMessage overlong 1)).2 ≠ [overlong] := by
  have hmsg : overlong ≠ [] := by decide +kernel
  have hlen : overlong.length ≤ 99 * 240 := by decide +kernel
  have hidle : (Client.fresh []).Idle 1 := rfl
  have hout := (deliver_sendAddonMessage Layout.plain hmsg hlen (by decide : 1 ≤ 999) hidle).1
  have hchunks : (chunks overlong).flatten = overlong ++ [98] := by decide +kernel
  rw [hchunks] at hout
  exact ⟨hmsg, hlen, hidle, hout, by rw [hout]; decide +kernel⟩

end HungerGames.Addon
