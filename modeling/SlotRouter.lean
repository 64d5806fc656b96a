import SlotRouter.Address
import SlotRouter.Budget
import SlotRouter.Bytes
import SlotRouter.Client
import SlotRouter.Command
import SlotRouter.Config
import SlotRouter.Config.Document
import SlotRouter.Error
import SlotRouter.Frame
import SlotRouter.Frame.Decode
import SlotRouter.Frame.Stream
import SlotRouter.Frame.Wire
import SlotRouter.Invocation
import SlotRouter.Invocation.Attempt
import SlotRouter.Json
import SlotRouter.Layout
import SlotRouter.Layout.Render
import SlotRouter.Link
import SlotRouter.Link.Dial
import SlotRouter.Network
import SlotRouter.Pool
import SlotRouter.Pool.Borrow
import SlotRouter.Reply
import SlotRouter.Seed
import SlotRouter.Seed.Domain
import SlotRouter.Seed.Ip
import SlotRouter.Seed.Url
import SlotRouter.Semaphore
import SlotRouter.Simulation.LinkSession
import SlotRouter.Simulation.Node
import SlotRouter.Simulation.Plan
import SlotRouter.Simulation.PoolSession
import SlotRouter.Simulation.Session
import SlotRouter.Simulation.Task
import SlotRouter.Simulation.Timeline
import SlotRouter.Slot
import SlotRouter.SlotTable
import SlotRouter.Text.Shown
import SlotRouter.Text.Words
import SlotRouter.Topology
import SlotRouter.Topology.Discovery
import SlotRouter.Topology.Refresh
import SlotRouter.World
import SlotRouter.Proofs.Accounting
import SlotRouter.Proofs.Agreement
import SlotRouter.Proofs.AskOnce
import SlotRouter.Proofs.Asking
import SlotRouter.Proofs.Books
import SlotRouter.Proofs.Books.Activities
import SlotRouter.Proofs.Checksum
import SlotRouter.Proofs.Closing
import SlotRouter.Proofs.Coalescing
import SlotRouter.Proofs.Custody
import SlotRouter.Proofs.Custody.Activities
import SlotRouter.Proofs.Deadline
import SlotRouter.Proofs.Execution
import SlotRouter.Proofs.Frame.Chunks
import SlotRouter.Proofs.Frame.Cursor
import SlotRouter.Proofs.Frame.Grammar
import SlotRouter.Proofs.Frame.Parse
import SlotRouter.Proofs.Frame.Rejections
import SlotRouter.Proofs.Frame.Rewriting
import SlotRouter.Proofs.Frame.RoundTrip
import SlotRouter.Proofs.History
import SlotRouter.Proofs.Identity
import SlotRouter.Proofs.Inquiries
import SlotRouter.Proofs.Ipv6Text
import SlotRouter.Proofs.KeySets
import SlotRouter.Proofs.KeySlots
import SlotRouter.Proofs.Keyed
import SlotRouter.Proofs.LateAttempts
import SlotRouter.Proofs.Layouts
import SlotRouter.Proofs.ListReplies
import SlotRouter.Proofs.Numerals
import SlotRouter.Proofs.OwnPool
import SlotRouter.Proofs.OwnReplies
import SlotRouter.Proofs.Pacing
import SlotRouter.Proofs.Patrons
import SlotRouter.Proofs.Pauses
import SlotRouter.Proofs.Permits
import SlotRouter.Proofs.Places
import SlotRouter.Proofs.Readback
import SlotRouter.Proofs.Recognition
import SlotRouter.Proofs.Redirects
import SlotRouter.Proofs.Referrals
import SlotRouter.Proofs.Refreshes
import SlotRouter.Proofs.Registry
import SlotRouter.Proofs.Reruns
import SlotRouter.Proofs.Seeds
import SlotRouter.Proofs.Surveys
import SlotRouter.Proofs.Tags
import SlotRouter.Proofs.Traffic
import SlotRouter.Proofs.UrlHosts
import SlotRouter.Proofs.Waiting
