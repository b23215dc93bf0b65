import BankingSystem.Machinery.FirstFit
import BankingSystem.Machinery.Records
import BankingSystem.Machinery.Pieces
import BankingSystem.Machinery.Field
import BankingSystem.Machinery.Memory
import BankingSystem.Machinery.Progress
import BankingSystem.Machinery.Exits
import BankingSystem.Machinery.Linear
import BankingSystem.Machinery.Alone
import BankingSystem.Machinery.Trace
import BankingSystem.Common.Account
import BankingSystem.Common.Double
import BankingSystem.Common.Protocol
import BankingSystem.Common.RoundTrip
import BankingSystem.Common.Checksum
import BankingSystem.Account.Locking
import BankingSystem.Account.Ledger
import BankingSystem.Account.Lookup
import BankingSystem.Account.Identity
import BankingSystem.Account.Shutdown
import BankingSystem.Account.Overdraft
import BankingSystem.Account.Reads
import BankingSystem.Account.Conservation
import BankingSystem.Otp.Server
import BankingSystem.Otp.Codes
import BankingSystem.Otp.Issued
import BankingSystem.Otp.Unique
import BankingSystem.Otp.Socket
import BankingSystem.Otp.Memory
import BankingSystem.Otp.Layout
import BankingSystem.Server.Request
import BankingSystem.Server.Worker
import BankingSystem.Server.Status
import BankingSystem.Server.Stale
import BankingSystem.Server.Session
import BankingSystem.Server.Connection
import BankingSystem.Server.Reads
import BankingSystem.Server.AccountId
import BankingSystem.Server.Linear
import BankingSystem.Server.Master
import BankingSystem.Server.Cleanup
import BankingSystem.Server.Remaining
import BankingSystem.Server.Shutdown
import BankingSystem.Client.Core
import BankingSystem.Client.Login
import BankingSystem.Client.Sizes
import BankingSystem.Client.Flow
import BankingSystem.Client.Stress
import BankingSystem.Client.Menu
import BankingSystem.Client.Routine
import BankingSystem.System.Login
import BankingSystem.System.Screen
import BankingSystem.System.Load
import BankingSystem.System.Barrier
import BankingSystem.System.Report
