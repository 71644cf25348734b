import ChannelAdapter.Main
import ChannelAdapter.World
import ChannelAdapter.Proofs.Chunk.Size
import ChannelAdapter.Proofs.Chunk.Coverage
import ChannelAdapter.Proofs.Chunk.ReadBack
import ChannelAdapter.Proofs.Chunk.Placement
import ChannelAdapter.Proofs.Segment.Partition
import ChannelAdapter.Proofs.Chunk.Agreement
import ChannelAdapter.Proofs.Monitor.Run
import ChannelAdapter.Proofs.Monitor.Cursor
import ChannelAdapter.Proofs.Input
import ChannelAdapter.Proofs.Stream.Run
import ChannelAdapter.Proofs.Stream.Calls
import ChannelAdapter.Proofs.Monitor.Ceiling
import ChannelAdapter.Proofs.Clock
import ChannelAdapter.Proofs.Monitor.Schedule
import ChannelAdapter.Proofs.Monitor.Resume
import ChannelAdapter.Proofs.Chunk.Blank
import ChannelAdapter.Proofs.Delivery
import ChannelAdapter.Proofs.Loopback.Messages
import ChannelAdapter.Proofs.Loopback.Inbox
import ChannelAdapter.Proofs.Chunk.Body
import ChannelAdapter.Proofs.Chunk.LineEnd
import ChannelAdapter.Proofs.Chunk.Prose
import ChannelAdapter.Proofs.Chunk.Selection
import ChannelAdapter.Proofs.Framing
import ChannelAdapter.Proofs.Wire
import ChannelAdapter.Proofs.Stream.Cancellation
import ChannelAdapter.Proofs.Stream.Faults
import ChannelAdapter.Proofs.Input.Demand
import ChannelAdapter.Proofs.Loopback.Growth
import ChannelAdapter.Proofs.Loopback.Interruption
import ChannelAdapter.Proofs.Stream.Reading
import ChannelAdapter.Proofs.Segment.Completion
import ChannelAdapter.Proofs.Emitter
import ChannelAdapter.Proofs.Json.Given
import ChannelAdapter.Proofs.Context
import ChannelAdapter.Proofs.Json.Hole
import ChannelAdapter.Proofs.Context.Secret
import ChannelAdapter.Proofs.Context.Loading
import ChannelAdapter.Proofs.Execute
import ChannelAdapter.Proofs.Calendar
import ChannelAdapter.Proofs.Calendar.Parse
import ChannelAdapter.Proofs.Loopback.Backfill
import ChannelAdapter.Proofs.Text.Boundary
import ChannelAdapter.Proofs.Event
import ChannelAdapter.Proofs.Chunk.Progress
import ChannelAdapter.Proofs.Text.Slice
import ChannelAdapter.Proofs.Chunk.Slicing
import ChannelAdapter.Proofs.Chunk.Walk
import ChannelAdapter.Proofs.Segment.Scan
import ChannelAdapter.Proofs.Chunk.Safety
import ChannelAdapter.Proofs.Chunk.Search
