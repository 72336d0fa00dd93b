import ChainReplication.Server.Duplicates
import ChainReplication.Server.Queries
import ChainReplication.System.Consistency
import ChainReplication.System.Debit
import ChainReplication.System.Pending
import ChainReplication.System.Once
import ChainReplication.System.Replies
import ChainReplication.System.Single
import ChainReplication.System.Convergence
import ChainReplication.Extension.Bank
import ChainReplication.Extension.Counter
import ChainReplication.Extension.Transfers
import ChainReplication.Extension.Abort
import ChainReplication.Extension.Tails
import ChainReplication.Extension.NewHead
import ChainReplication.Master.Overlap
import ChainReplication.System.Resend
import ChainReplication.Transfers.Conservation
import ChainReplication.Transfers.OwnBank
import ChainReplication.DistAlgo.Repair
import ChainReplication.DistAlgo.Abort
import ChainReplication.DistAlgo.Handoff
import ChainReplication.System.HeadTables
import ChainReplication.System.QueryTiming
import ChainReplication.Server.Keys
import ChainReplication.Wraparound.Overflow
import ChainReplication.Configuration.Order
import ChainReplication.Client.Requests
import ChainReplication.Frames
import ChainReplication.Client.Loop
import ChainReplication.DistAlgo.Tails
import ChainReplication.Transfers.Completion
import ChainReplication.System.Quiescence
import ChainReplication.System.Completeness
import ChainReplication.DistAlgo.Replication
