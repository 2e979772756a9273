import Rollcall.Proofs.Connection.Members
import Rollcall.Proofs.Database.Masking
import Rollcall.Proofs.Latency.History
import Rollcall.Proofs.Latency.Ranks
import Rollcall.Proofs.Presence.Following
import Rollcall.Proofs.Presence.Surplus
import Rollcall.Proofs.Redis.BreakerLog
import Rollcall.Proofs.Redis.KeyCount
import Rollcall.Proofs.Redis.Recovery
import Rollcall.Proofs.Redis.Stale
import Rollcall.Proofs.Redis.Warmup
import Rollcall.Proofs.Service.Origins
import Rollcall.Proofs.Service.Timing
import Rollcall.Proofs.Session.Announced
import Rollcall.Proofs.Session.Broadcasts
import Rollcall.Proofs.Session.Closing
import Rollcall.Proofs.Session.Counting
import Rollcall.Proofs.Session.Echo
import Rollcall.Proofs.Session.Handover
import Rollcall.Proofs.Session.Presence
import Rollcall.Proofs.Session.Relay
import Rollcall.Proofs.Session.Stuck
import Rollcall.Proofs.Stats.Sections
import Rollcall.Main
import Rollcall.Redis.Server
import Rollcall.Service.Router
import Rollcall.Session.Desk
import Rollcall.Session.Guest
import Rollcall.Settings.Document
import Rollcall.Text.Hex
import Rollcall.Proofs.Latency.Mean
import Rollcall.Proofs.Backoff.Bounds
import Rollcall.Proofs.Connection.Signalling
