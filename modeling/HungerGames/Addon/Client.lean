/-
# The client's end of the add-on channel (`MainFrame.lua`)

`eventHandlerMainFrame` receives every add-on message.  Its first half puts messages together:
a frame starts with a three-digit packet number, a two-digit link number and a two-digit link
count, the parts are kept in `links[packet]`, and the frame that completes the count makes the
full message.  Its second half acts on full messages; the game list and the member list are
cut into tokens by `scen_split` and stored in `ONLINE_PLAYERS`.
-/
import HungerGames.Lua.Table
import HungerGames.Lua.Text

namespace HungerGames.Addon

open HungerGames.Lua

/-! ## 1. State -/

/-- `links[packet]`: the parts received so far, and how many. -/
structure Links where
  count : ℕ
  parts : Table Bytes
deriving DecidableEq

/-- `{count = 0}` -/
def Links.none : Links := ⟨0, Table.empty⟩

/-- One row of `ONLINE_PLAYERS`: `{name, status}`, either of which may be `nil`. -/
structure Entry where
  name : Option Bytes
  status : Option Bytes
deriving DecidableEq

/-- The variables of `MainFrame.lua` that `eventHandlerMainFrame` reads or writes. -/
structure Client where
  /-- `UnitName("player")` -/
  unitName : Bytes
  links : ℕ → Option Links
  /-- `ONLINE_PLAYERS` -/
  onlinePlayers : Table Entry
  /-- `IN_GAME` -/
  inGame : Bool
  /-- `SELECTED_PERKS` -/
  selectedPerks : Table ℕ
  /-- `ReloadUI()` was called -/
  reloaded : Bool

/-- What is pending for a packet number; a missing table counts as an empty one. -/
def Client.pending (c : Client) (packet : ℕ) : Links := (c.links packet).getD Links.none

/-- No partial message of this packet number is pending. -/
def Client.Idle (c : Client) (packet : ℕ) : Prop := c.pending packet = Links.none

def Client.setLinks (c : Client) (packet : ℕ) (l : Links) : Client :=
  { c with links := fun p => if p = packet then some l else c.links p }

@[simp] theorem Client.pending_setLinks (c : Client) (packet : ℕ) (l : Links) :
    (c.setLinks packet l).pending packet = l := by
  simp [Client.pending, Client.setLinks]

/-! ## 2. Frames -/

/-- The fields of a frame. -/
structure Frame where
  packet : ℕ
  link : ℕ
  linkCount : ℕ
  msg : Bytes
deriving DecidableEq

/-- The pattern `(%d%d%d)(%d%d)(%d%d)(.+)` at the start of a string. -/
def matchHere (s : Bytes) : Option Frame :=
  if (s.take 7).all isDigit ∧ 7 < s.length then
    some ⟨digitsValue (s.take 3), digitsValue ((s.drop 3).take 2),
      digitsValue ((s.drop 5).take 2), s.drop 7⟩
  else none

/-- `message:match(pattern)`: the pattern is not anchored, so the first position where it
matches counts. -/
def matchFrame : Bytes → Option Frame
  | [] => none
  | c :: s => (matchHere (c :: s)).orElse fun _ => matchFrame s

/-- `table.concat(t)`; `none` is the error that an index up to `#t` is not a string. -/
def concat (L : Layout) (t : Table Bytes) : Option Bytes :=
  ((List.range' 1 (t.length L .built)).mapM t.get).map List.flatten

/-! ## 3. `scen_split` -/

/-- The function `string.gsub` calls on each byte of the class `[%w%s-]`; the other bytes are
skipped.  `b` holds the fields, `c` the number of the current one. -/
def scenStep (bc : Table Bytes × ℕ) (a : UInt8) : Table Bytes × ℕ :=
  if a = dash then (bc.1, bc.2 + 1)
  else if isAlnum a || isSpace a then
    (bc.1.set bc.2 (some ((bc.1.get bc.2).getD [] ++ [a])), bc.2)
  else bc

/-- `scen_split`: the fields, in the order `pairs(b)` visits them. -/
def scenSplit (L : Layout) (str : Bytes) : List Bytes :=
  ((str.foldl scenStep (Table.empty, 1)).1.pairs L .built).map Prod.snd

/-! ## 4. Full messages -/

/-- The pairing loop of the `GAMES-` branch: `{tokens[i + 1], tokens[i]}` for `i = 2, 4, ..`. -/
def pairGames (tokens : List Bytes) (rows : Table Entry) : Table Entry :=
  ((forRange 2 tokens.length 2).zipIdx 1).foldl
    (fun rows ip => rows.set ip.2 (some ⟨tokens[ip.1]?, tokens[ip.1 - 1]?⟩)) rows

/-- The loop of the `PLAYERS-` branch: `{tokens[i], "1"}` for `i = 2, 3, ..`. -/
def listPlayers (tokens : List Bytes) (rows : Table Entry) : Table Entry :=
  (forRange 2 tokens.length 1).foldl
    (fun rows i => rows.set (i - 1) (some ⟨tokens[i - 1]?, some (bytes "1")⟩)) rows

/-- `tonumber` on a string of letters, digits and spaces of at most two characters: digits
with spaces around them. -/
def tonumber (s : Bytes) : Option ℕ :=
  let t := ((s.dropWhile isSpace).reverse.dropWhile isSpace).reverse
  if t ≠ [] ∧ t.all isDigit then some (digitsValue t) else none

/-- The loop of the `SelectedPerks-` branch over `offsets = {1, 3, 5, 7}`. -/
def selectPerks (perks : Bytes) (t : Table ℕ) : Table ℕ :=
  (([1, 3, 5, 7] : List ℕ).zipIdx 1).foldl
    (fun t oi => t.set oi.2 (tonumber (sub perks oi.1 (oi.1 + 1)))) t

/-- The second half of `eventHandlerMainFrame`. -/
def handleFullMessage (L : Layout) (c : Client) (fullMessage : Bytes) : Client :=
  if fullMessage = bytes "STARTINGGAME" then { c with inGame := true }
  else if fullMessage = bytes "EXITEDGAME" then { c with inGame := false }
  else if fullMessage = bytes "RESET" then { c with reloaded := true }
  else if starts fullMessage (bytes "GAMES-") then
    { c with onlinePlayers := pairGames (scenSplit L fullMessage) c.onlinePlayers }
  else if starts fullMessage (bytes "PLAYERS-") then
    { c with onlinePlayers := listPlayers (scenSplit L fullMessage) c.onlinePlayers }
  else if starts fullMessage (bytes "SelectedPerks-") then
    -- without a second token the index of `nil` raises, before anything is written
    match (scenSplit L fullMessage)[1]? with
    | some perks => { c with selectedPerks := selectPerks perks c.selectedPerks }
    | none => c
  else c

/-- `eventHandlerMainFrame(self, event, message, _, Type, Sender)`.  The second component is
the full message the call acted on, if there was one. -/
def eventHandlerMainFrame (L : Layout) (c : Client) (event message sender : Bytes) :
    Client × Option Bytes :=
  if event = bytes "CHAT_MSG_ADDON" ∧ sender = c.unitName then
    match matchFrame message with
    | none => (c, none)
    | some f =>
      let old := c.pending f.packet
      let new : Links := ⟨old.count + 1, old.parts.set f.link (some f.msg)⟩
      let c := c.setLinks f.packet new
      if new.count ≠ f.linkCount then (c, none)
      else match concat L new.parts with
        | none => (c, none)
        | some fullMessage =>
          (handleFullMessage L (c.setLinks f.packet Links.none) fullMessage, some fullMessage)
  else (c, none)

/-- Deliver frames in order, all whispered by the player to himself; collect the full
messages acted on. -/
def deliver (L : Layout) : Client → List Bytes → Client × List Bytes
  | c, [] => (c, [])
  | c, frame :: frames =>
    let r := eventHandlerMainFrame L c (bytes "CHAT_MSG_ADDON") frame c.unitName
    let r' := deliver L r.1 frames
    (r'.1, r.2.toList ++ r'.2)

/-- What the button `CreateGameBtn` sends with `CREATEGAME`. -/
def createMessage (gameName gamePassword : Bytes) : Bytes :=
  if gamePassword.length > 0 then gameName ++ bytes "-" ++ gamePassword else gameName

/-! ## 5. What acting on a message leaves alone -/

@[simp] theorem handleFullMessage_links (L : Layout) (c : Client) (m : Bytes) :
    (handleFullMessage L c m).links = c.links := by
  unfold handleFullMessage
  repeat' split
  all_goals rfl

@[simp] theorem handleFullMessage_pending (L : Layout) (c : Client) (m : Bytes) (p : ℕ) :
    (handleFullMessage L c m).pending p = c.pending p := by
  simp [Client.pending]

end HungerGames.Addon
