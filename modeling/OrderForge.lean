import OrderForge.Keyed
import OrderForge.FlatMap
import OrderForge.InsertionMap
import OrderForge.Greedy
import OrderForge.Ranked
import OrderForge.History
import OrderForge.Machine
import OrderForge.Splice
import OrderForge.Trail
import OrderForge.Chain
import OrderForge.Binary64
import OrderForge.RoundingError
import OrderForge.Json
import OrderForge.Trim
import OrderForge.ScaledInt
import OrderForge.Order
import OrderForge.MatchingEngine
import OrderForge.PriceLevel
import OrderForge.BookSide
import OrderForge.OrderBook
import OrderForge.Session
import OrderForge.RingBuffer
import OrderForge.Logger
import OrderForge.LevelMatch
import OrderForge.LevelInvariant
import OrderForge.SideMatch
import OrderForge.Ladder
import OrderForge.SideInvariant
import OrderForge.SideServe
import OrderForge.BookInvariant
import OrderForge.BookStep
import OrderForge.SessionInvariant
import OrderForge.PriceProtection
import OrderForge.Representation
import OrderForge.Cancel
import OrderForge.Fate
import OrderForge.Vanish
import OrderForge.Priority
import OrderForge.Uncrossed
import OrderForge.Identity
import OrderForge.Ledger
import OrderForge.DepthFeed
import OrderForge.OrderFeed
import OrderForge.Exits
import OrderForge.Canonical
import OrderForge.Immediate
import OrderForge.Splitting
import OrderForge.Commute
import OrderForge.Status
import OrderForge.Admission
import OrderForge.ZeroQuantity
import OrderForge.Mirror
import OrderForge.Symmetry
import OrderForge.LoggerInvariant
import OrderForge.Overwrite
import OrderForge.Following
import OrderForge.Delivery
import OrderForge.LogThread
import OrderForge.AbsentCancel
import OrderForge.IdIndex
import OrderForge.Numbering
import OrderForge.Freshness
import OrderForge.ProcessRun
import OrderForge.FixedPoint
import OrderForge.PoolAllocator
import OrderForge.SlotAccounting
import OrderForge.HashLinkedList
import OrderForge.ListLinks
import OrderForge.ListRefinement
import OrderForge.ParseOrder
import OrderForge.MessageFormat
import OrderForge.OrderForgeApp
import OrderForge.TcpReactor
import OrderForge.Registry
import OrderForge.Segmentation
import OrderForge.WriteJson
import OrderForge.Envelope
import OrderForge.Process
import OrderForge.LinkedLevel
import OrderForge.LinkedBook
import OrderForge.LevelRefinement
import OrderForge.SideRefinement
import OrderForge.SweepRefinement
import OrderForge.BookRefinement
import OrderForge.ProcessRefinement
import OrderForge.LiveNodes
import OrderForge.RoundTrip
import OrderForge.Independence
import OrderForge.ProcessIds
import OrderForge.Exchange
import OrderForge.Roster
import OrderForge.QueueFeed
import OrderForge.Subscriber
import OrderForge.WireNumbers
import OrderForge.IdealBook
import OrderForge.IdealRefinement
