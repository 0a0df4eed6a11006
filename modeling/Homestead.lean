import Homestead.Deck
import Homestead.Document.Card
import Homestead.Document.Nesting
import Homestead.Game.Move
import Homestead.Proofs.Game.Gate
import Homestead.Proofs.Isolation
import Homestead.Proofs.Responding
import Homestead.Proofs.Batching
import Homestead.Proofs.Interference
import Homestead.Proofs.Accounts
import Homestead.Proofs.Exactness
import Homestead.Proofs.Solvency
import Homestead.Proofs.Game.Solvency
import Homestead.Proofs.Game.Lenient
import Homestead.Proofs.Pairs
import Homestead.Proofs.Game.Statistics
import Homestead.Proofs.Game.Ledger
import Homestead.Proofs.Ledger
import Homestead.Proofs.Saved
import Homestead.Proofs.Document.RoundTrip
import Homestead.Proofs.Game.Numbering
import Homestead.Proofs.Game.Strays
import Homestead.Proofs.Game.Namesakes
import Homestead.Proofs.Game.Capabilities
import Homestead.Proofs.Resolution
import Homestead.Proofs.Affordability
import Homestead.Proofs.FreePrice
import Homestead.Proofs.Wealth
import Homestead.Proofs.Finding
import Homestead.Proofs.LoneCopy
import Homestead.Proofs.Cooking
import Homestead.Proofs.Game.Rebuilding
import Homestead.Proofs.Indexes
import Homestead.Proofs.Totals
import Homestead.Proofs.Lookups
