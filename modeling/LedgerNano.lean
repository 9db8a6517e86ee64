import LedgerNano.SignedHash
import LedgerNano.InputTable
import LedgerNano.Approval
import LedgerNano.Queries
import LedgerNano.Rejection
import LedgerNano.Replies
import LedgerNano.Paths
import LedgerNano.Validation
import LedgerNano.Delivery
import LedgerNano.Chunking
import LedgerNano.Host
import LedgerNano.Addresses
import LedgerNano.Conversion
import LedgerNano.Amounts
import LedgerNano.Failure
import LedgerNano.Counts
import LedgerNano.Staging
import LedgerNano.Received
import LedgerNano.Insertions
import LedgerNano.Client
import LedgerNano.Fetching
import LedgerNano.Encoders
import LedgerNano.Redraws
import LedgerNano.RawTransaction
import LedgerNano.Consent
import LedgerNano.Safety
import LedgerNano.Recovery
import LedgerNano.Serialization
import LedgerNano.Answers
import LedgerNano.Binding
import LedgerNano.PublicKeys
import LedgerNano.QueryScripts
import LedgerNano.KeyRecovery
import LedgerNano.Ownership
import LedgerNano.Cycle
import LedgerNano.Counter
import LedgerNano.Choosing
import LedgerNano.Typed
import LedgerNano.Wallet
