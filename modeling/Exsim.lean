import Exsim.Bench.Commands
import Exsim.Bench.LiveIds
import Exsim.Bench.Replay
import Exsim.Bench.Verification
import Exsim.BookManager.Bounds
import Exsim.BookManager.Calls
import Exsim.BookManager.Checksum
import Exsim.BookManager.Digest
import Exsim.BookManager.Index
import Exsim.BookManager.Ladders
import Exsim.BookManager.Refinement
import Exsim.BookManager.Totals
import Exsim.Core.BookManager
import Exsim.Core.Exchange
import Exsim.Core.OrderBook
import Exsim.Core.Risk
import Exsim.Core.Subscriber
import Exsim.Data.Bitmap
import Exsim.Data.Channel
import Exsim.Data.Damage
import Exsim.Data.Framing
import Exsim.Data.Interleave
import Exsim.Data.Keyed
import Exsim.Data.Linked
import Exsim.Data.LittleEndian
import Exsim.Data.Priority
import Exsim.Data.Reorder
import Exsim.Data.Run
import Exsim.Data.Scan
import Exsim.Data.Succession
import Exsim.Data.SwapRemove
import Exsim.Data.Words
import Exsim.Exchange.Accounts
import Exsim.Exchange.Calls
import Exsim.Exchange.Delivery
import Exsim.Exchange.Dispatch
import Exsim.Exchange.FailedRestart
import Exsim.Exchange.Independence
import Exsim.Exchange.Interference
import Exsim.Exchange.Lane
import Exsim.Exchange.Limits
import Exsim.Exchange.Locality
import Exsim.Exchange.Mirror
import Exsim.Exchange.NeverCrossed
import Exsim.Exchange.Numbering
import Exsim.Exchange.QueuePosition
import Exsim.Exchange.Recovery
import Exsim.Exchange.Refusals
import Exsim.Exchange.Relaxation
import Exsim.Exchange.Replay
import Exsim.Exchange.Restart
import Exsim.Exchange.SizeLimits
import Exsim.Exchange.Specification
import Exsim.Exchange.Takeover
import Exsim.Exchange.Turnover
import Exsim.Journal.Cut
import Exsim.Journal.Damage
import Exsim.Journal.Journal
import Exsim.Journal.Records
import Exsim.Md.MarketData
import Exsim.OrderBook.Append
import Exsim.OrderBook.Bounds
import Exsim.OrderBook.Calls
import Exsim.OrderBook.Checksum
import Exsim.OrderBook.Collision
import Exsim.OrderBook.Contents
import Exsim.OrderBook.Cycle
import Exsim.OrderBook.Digest
import Exsim.OrderBook.Exhaustion
import Exsim.OrderBook.Explained
import Exsim.OrderBook.Fifo
import Exsim.OrderBook.Invariant
import Exsim.OrderBook.Ledger
import Exsim.OrderBook.Matching
import Exsim.OrderBook.Numbering
import Exsim.OrderBook.Occupancy
import Exsim.OrderBook.Pool
import Exsim.OrderBook.Priority
import Exsim.OrderBook.Quantity
import Exsim.OrderBook.Queues
import Exsim.OrderBook.Refinement
import Exsim.OrderBook.Relabelling
import Exsim.OrderBook.Remove
import Exsim.OrderBook.Representation
import Exsim.OrderBook.Resting
import Exsim.OrderBook.Rounds
import Exsim.OrderBook.Splitting
import Exsim.OrderBook.Totals
import Exsim.OrderBook.Uncrossed
import Exsim.OrderBook.Wrapping
import Exsim.Protocol.Frames
import Exsim.Protocol.OrderEntry
import Exsim.Reference.Accounts
import Exsim.Reference.ArrivalBook
import Exsim.Reference.ArrivalMarket
import Exsim.Reference.Bands
import Exsim.Reference.Commands
import Exsim.Reference.Crossing
import Exsim.Reference.Feed
import Exsim.Reference.Follower
import Exsim.Reference.Index
import Exsim.Reference.Lanes
import Exsim.Reference.Ledger
import Exsim.Reference.MarketFeed
import Exsim.Reference.Queues
import Exsim.Reference.Relabelling
import Exsim.Reference.Splitting
import Exsim.Reference.Succession
import Exsim.Reference.Sweep
import Exsim.Reference.Turnover
import Exsim.Reference.Weights
import Exsim.Risk.Checksum
import Exsim.Risk.Counters
import Exsim.Risk.RateLimit
import Exsim.Subscriber.Events
import Exsim.Subscriber.Frames
import Exsim.Tools.ReplayCheck
import Exsim.Types
import Exsim.Util.Checksum
import Exsim.Util.Codec
import Exsim.Util.Damage
import Exsim.Util.Frame
