import CMeshApi.Slip.RoundTrip
import CMeshApi.Slip.Accepted
import CMeshApi.Slip.Waiting
import CMeshApi.Slip.Capacity
import CMeshApi.Slip.Sending
import CMeshApi.Foundations.CyclicCodes
import CMeshApi.Slip.Bursts
import CMeshApi.Reassembly.Completeness
import CMeshApi.Reassembly.Integrity
import CMeshApi.Reassembly.Ageing
import CMeshApi.Dsap.Delivery
import CMeshApi.Dsap.Transmission
import CMeshApi.Dsap.Arrival
import CMeshApi.Dsap.Fragmentation
import CMeshApi.Dsap.Mixture
import CMeshApi.Dsap.SentCallbacks
import CMeshApi.Wpc.Link
import CMeshApi.Wpc.AtMostOnce
import CMeshApi.Wpc.OwnConfirm
import CMeshApi.Wpc.Attempts
import CMeshApi.Dsap.CallbackRaces
import CMeshApi.Foundations.Ring
import CMeshApi.Platform.Threads
import CMeshApi.Platform.IndicationQueue
import CMeshApi.Platform.Closing
import CMeshApi.Platform.Backlog
import CMeshApi.Platform.Leaving
import CMeshApi.Platform.Close
import CMeshApi.Platform.StopRequest
import CMeshApi.Platform.Drained
import CMeshApi.Platform.UnlockedReads
import CMeshApi.Foundations.Programs
import CMeshApi.Wpc.Environment
import CMeshApi.Wpc.Management
import CMeshApi.Wpc.RequestSizes
import CMeshApi.Wpc.Polling
import CMeshApi.Wpc.Multicast
import CMeshApi.Wpc.PollFail
import CMeshApi.Foundations.Extent
import CMeshApi.Wpc.Confirms
import CMeshApi.Wpc.Indications
import CMeshApi.Wpc.Frames
import CMeshApi.Wpc.Transactions
import CMeshApi.Foundations.Wire
import CMeshApi.Proto.Gateway
import CMeshApi.Proto.Encoding
import CMeshApi.Proto.ReceivedEvent
import CMeshApi.Proto.Config
import CMeshApi.Proto.Otap
import CMeshApi.Proto.Frames
import CMeshApi.Proto.Autostart
import CMeshApi.Proto.StoredStatus
import CMeshApi.Proto.ChunkedLoad
import CMeshApi.Proto.Requests
import CMeshApi.Proto.Unfilled
import CMeshApi.Proto.ResponseBuffer
import CMeshApi.Proto.NodeConfig
import CMeshApi.Proto.NewConfig
import CMeshApi.Proto.ConfigHistory
import CMeshApi.Proto.StackRequests
import CMeshApi.Proto.RunningStatus
import CMeshApi.Slip.Receive
import CMeshApi.Slip.Returned
import CMeshApi.Slip.Accesses
import CMeshApi.Slip.Resync
import CMeshApi.Wpc.Scratchpad
import CMeshApi.Wpc.BlockRequests
import CMeshApi.Proto.Sessions
import CMeshApi.Proto.Refresh
import CMeshApi.Foundations.Notes
import CMeshApi.Proto.ConfigAttempts
import CMeshApi.Proto.TargetAction
import CMeshApi.Uthash.Check
import CMeshApi.Reassembly.Runs
import CMeshApi.Serial.Frames
import CMeshApi.Serial.Descriptors
import CMeshApi.Platform.Logger
import CMeshApi.Wpc.RequestLock
import CMeshApi.Proto.Answers
import CMeshApi.Proto.Published
import CMeshApi.Proto.Pipeline
import CMeshApi.Wpc.Attributes
import CMeshApi.Proto.Journey
import CMeshApi.Wpc.ConfigDataItems
import CMeshApi.Proto.ReadConfig
