import HungerGames.Lua.Table
import HungerGames.Lua.Text
import HungerGames.Lua.Call
import HungerGames.System.Run
import HungerGames.Addon.Client
import HungerGames.Addon.Framing
import HungerGames.Arena.State
import HungerGames.Arena.Commands
import HungerGames.Arena.System
import HungerGames.Arena.Turn
import HungerGames.Arena.Walk
import HungerGames.Arena.Membership
import HungerGames.Arena.Phases
import HungerGames.Arena.TickSafety
import HungerGames.Arena.Start
import HungerGames.Addon.Tokens
import HungerGames.Arena.GameList
import HungerGames.Arena.Rename
import HungerGames.Arena.Secrecy
import HungerGames.Crypto.Primality
import HungerGames.Auth.BigNumber
import HungerGames.Auth.MessageBuffer
import HungerGames.Auth.Session
import HungerGames.Crypto.Sha1
import HungerGames.Auth.Connection
import HungerGames.Auth.LogonBinding
import HungerGames.Auth.Gating
import HungerGames.Auth.Srp6
import HungerGames.Auth.Bounds
import HungerGames.Auth.Segmentation
import HungerGames.World.AuthCrypt
import HungerGames.World.ByteBuffer
import HungerGames.World.Session
import HungerGames.World.Socket
import HungerGames.World.Parser
import HungerGames.World.ReadWindow
import HungerGames.World.Robustness
import HungerGames.World.Outgoing
import HungerGames.World.SendOrder
import HungerGames.World.DelayedClose
import HungerGames.Guilds.LogHolder
import HungerGames.Guilds.Roster
import HungerGames.Guilds.Structure
import HungerGames.Guilds.Privilege
import HungerGames.Guilds.BankLimits
import HungerGames.Battlegrounds.Queue
import HungerGames.Battlegrounds.QueueStructure
import HungerGames.Guilds.BankItems
import HungerGames.Battlegrounds.MatchFormation
import HungerGames.Lfg.Queue
import HungerGames.Lfg.Proposals
import HungerGames.Lfg.Conservation
import HungerGames.Calendar.Mgr
import HungerGames.Calendar.Ids
import HungerGames.Calendar.Rights
import HungerGames.Trade.Window
import HungerGames.Trade.Agreement
import HungerGames.Groups.Rolls
import HungerGames.Groups.RollProtocol
import HungerGames.Combat.Threat
import HungerGames.Combat.ThreatSafety
import HungerGames.Pools.Accounting
import HungerGames.Looting.Deliveries
import HungerGames.Accounts.Rbac
import HungerGames.Instances.InstanceIds
import HungerGames.Chat.Channel
import HungerGames.Chat.Membership
import HungerGames.Reputation.ReputationMgr
import HungerGames.Reputation.Consistency
import HungerGames.Reputation.Persistence
import HungerGames.Sessions.WorldSession
import HungerGames.Sessions.Dispatch
import HungerGames.Resets.InstanceSaveMgr
import HungerGames.Resets.Schedule
import HungerGames.Resets.Loading
import HungerGames.ChatLinks.ChatLink
import HungerGames.ChatLinks.Grammar
import HungerGames.ChatLinks.Reading
import HungerGames.ChatLinks.Soundness
import HungerGames.Inventory.CanStoreItem
import HungerGames.System.EarlyReturn
import HungerGames.Inventory.StoreItem
import HungerGames.Inventory.Storing
import HungerGames.Inventory.Planning
import HungerGames.Packets.PackedGuid
import HungerGames.Packets.ServerPktHeader
import HungerGames.Packets.PackedTime
import HungerGames.Auth.ByteArrays
import HungerGames.Auth.KeyAgreement
import HungerGames.Utilities.TimeString
import HungerGames.Auth.RealmList
import HungerGames.Utilities.Utf8
import HungerGames.Utilities.WideStrings
import HungerGames.Eluna.ElunaEventMgr
import HungerGames.Eluna.Termination
import HungerGames.Accounts.AccountMgr
import HungerGames.Auth.Registration
import HungerGames.Eluna.Repeats
import HungerGames.Lfg.Announcement
import HungerGames.Eluna.EventDispatch
import HungerGames.Inventory.Planned
import HungerGames.LoadOut.WordWrap
import HungerGames.Lfg.RoleSearch
import HungerGames.Lfg.VoteKick
import HungerGames.Battlegrounds.FillPlayers
import HungerGames.Pools.Loading
import HungerGames.Pools.Recursion
import HungerGames.Groups.RollResolution
import HungerGames.Combat.ThreatEvents
import HungerGames.Combat.TargetChoice
import HungerGames.Inventory.Replanning
import HungerGames.Inventory.Units
import HungerGames.Inventory.Stacks
import HungerGames.Inventory.CanStoreItems
import HungerGames.Trade.Execution
import HungerGames.Auctions.SellItem
import HungerGames.System.CheckedArith
import HungerGames.System.PeriodicWindow
import HungerGames.Events.GameEventMgr
import HungerGames.Events.Timing
import HungerGames.Utilities.EventMap
import HungerGames.Utilities.TimedEvents
import HungerGames.Calendar.Removal
import HungerGames.Calendar.RightRemovals
import HungerGames.ChatLinks.Totality
import HungerGames.Looting.LootStore
import HungerGames.Looting.Recursion
import HungerGames.DataStores.DBCFileLoader
import HungerGames.DataStores.TableBuilding
import HungerGames.Utilities.EventOwnership
import HungerGames.Inventory.DestroyItemCount
import HungerGames.Inventory.ItemPayment
import HungerGames.Looting.ContainerLoot
import HungerGames.Looting.Reopening
import HungerGames.Quests.Prerequisites
import HungerGames.Packets.UpdateMask
import HungerGames.Eluna.ScriptOrder
