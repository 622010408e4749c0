import DhcpServer.Acknowledge
import DhcpServer.ActiveLeases
import DhcpServer.CommentLines
import DhcpServer.ConfigKept
import DhcpServer.ConfigMeaning
import DhcpServer.Configured
import DhcpServer.Dereferences
import DhcpServer.DisplayList
import DhcpServer.Duplicates
import DhcpServer.Handover
import DhcpServer.Isolation
import DhcpServer.Lookups
import DhcpServer.MacAddress
import DhcpServer.MalformedLines
import DhcpServer.NumericOptions
import DhcpServer.OfferTrace
import DhcpServer.OptionPipeline
import DhcpServer.OptionWalk
import DhcpServer.PoolManager
import DhcpServer.PrintBounds
import DhcpServer.Process
import DhcpServer.Recycling
import DhcpServer.Reordering
import DhcpServer.ReplyOverrun
import DhcpServer.Reservations
import DhcpServer.SerializeBounds
import DhcpServer.ServerLog
import DhcpServer.Sweep
import DhcpServer.SweepFilter
import DhcpServer.TakenAddresses
import DhcpServer.TaskQueue
import DhcpServer.TypePadding
import DhcpServer.TypeScanBounds
import DhcpServer.TypeScanWindow
import DhcpServer.Uninitialised
import DhcpServer.ValueLists
import DhcpServer.ValueStores
import DhcpServer.Workers
