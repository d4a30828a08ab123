import WarheadCore.Accounts.Mutes
import WarheadCore.Accounts.Vip
import WarheadCore.Auction.BidLaw
import WarheadCore.Auction.GoldConservation
import WarheadCore.Auction.Posting
import WarheadCore.Auction.Settlement
import WarheadCore.Auction.Sorting
import WarheadCore.Battlegrounds.ArenaRatings
import WarheadCore.Battlegrounds.ArenaTeamLoading
import WarheadCore.Battlegrounds.Filling
import WarheadCore.Battlegrounds.RatedMatches
import WarheadCore.Battlegrounds.Skirmishes
import WarheadCore.Cache.NameIndex
import WarheadCore.Calendar.Authority
import WarheadCore.Calendar.GuildLeave
import WarheadCore.Calendar.Limits
import WarheadCore.Chat.ChannelOwner
import WarheadCore.Chat.Hyperlinks
import WarheadCore.Combat.TauntRoundTrip
import WarheadCore.Combat.VictimSelection
import WarheadCore.Conditions.ReferenceCycles
import WarheadCore.Configuration.ConfigMgr
import WarheadCore.Cryptography.SRP6
import WarheadCore.DataStores.DBCFileLoader
import WarheadCore.DungeonFinding.GuidCombinations
import WarheadCore.DungeonFinding.Matches
import WarheadCore.DungeonFinding.ProposalLaw
import WarheadCore.DungeonFinding.RaidBrowserLaw
import WarheadCore.DungeonFinding.RoleChecks
import WarheadCore.Encoding.BaseEncoding
import WarheadCore.Events.EventRuns
import WarheadCore.Events.Timetable
import WarheadCore.Groups.Persistence
import WarheadCore.Groups.RollResolution
import WarheadCore.Groups.RoundRobin
import WarheadCore.Guilds.BankGold
import WarheadCore.Guilds.EventLog
import WarheadCore.Guilds.RankAuthority
import WarheadCore.Guilds.RankInvariants
import WarheadCore.Guilds.SlotLimit
import WarheadCore.Instances.BindResets
import WarheadCore.Instances.InstanceIds
import WarheadCore.Instances.ResetTimes
import WarheadCore.Inventory.BuyBackSlots
import WarheadCore.Inventory.ItemDestruction
import WarheadCore.Looting.QuestDrops
import WarheadCore.Mails.ExternalMail
import WarheadCore.Mails.MailCount
import WarheadCore.Packets.PackedValues
import WarheadCore.Player.GameMoney
import WarheadCore.Pools.PoolHierarchy
import WarheadCore.Reputation.Persistence
import WarheadCore.Reputation.ReputationBounds
import WarheadCore.Sockets.InboundFraming
import WarheadCore.Sockets.OutboundStream
import WarheadCore.Tasks.AsyncCallables
import WarheadCore.Tickets.TicketLaw
import WarheadCore.Tools.PlayerDump
import WarheadCore.Trade.Acceptance
import WarheadCore.Utilities.EventDelays
import WarheadCore.Utilities.EventDelaysToMax
import WarheadCore.Utilities.EventLifecycle
import WarheadCore.Utilities.TimeStrings
