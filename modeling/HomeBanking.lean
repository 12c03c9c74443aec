import HomeBanking.Lib.Transition
import HomeBanking.Lib.Threads
import HomeBanking.Lib.Ring
import HomeBanking.Lib.Bytes
import HomeBanking.Lib.Text
import HomeBanking.Lib.Fifo
import HomeBanking.Lib.Checks
import HomeBanking.Lib.Code
import HomeBanking.Lib.Printf
import HomeBanking.Lib.Footprint
import HomeBanking.Lib.Store
import HomeBanking.Types
import HomeBanking.Bank
import HomeBanking.Wire
import HomeBanking.Processing
import HomeBanking.Balance
import HomeBanking.Sample
import HomeBanking.Isolation
import HomeBanking.Indices
import HomeBanking.Queue
import HomeBanking.Office
import HomeBanking.Offices
import HomeBanking.Locks
import HomeBanking.Deadlock
import HomeBanking.Creation
import HomeBanking.Conservation
import HomeBanking.Serial
import HomeBanking.Drain
import HomeBanking.Server
import HomeBanking.Messages
import HomeBanking.OwnRequests
import HomeBanking.Alone
import HomeBanking.Login
import HomeBanking.ActiveOffices
import HomeBanking.Mutexes
import HomeBanking.Replies
import HomeBanking.Transfers
import HomeBanking.User
import HomeBanking.Host
import HomeBanking.Reopen
import HomeBanking.Stream
import HomeBanking.Framing
import HomeBanking.CreateQueue
import HomeBanking.Arguments
import HomeBanking.Options
import HomeBanking.ReplyLines
import HomeBanking.Commute
import HomeBanking.Publication
import HomeBanking.Admission
import HomeBanking.Linearization
import HomeBanking.Ledger
import HomeBanking.Authority
import HomeBanking.Completion
import HomeBanking.Statement
import HomeBanking.Log
import HomeBanking.Audit
import HomeBanking.Turns
import HomeBanking.Sessions
import HomeBanking.Clients
