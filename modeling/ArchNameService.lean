import ArchNameService.Guarantees.Resolution
import ArchNameService.Guarantees.Listings
import ArchNameService.Guarantees.Payment
import ArchNameService.Guarantees.Concurrency
import ArchNameService.Guarantees.Conservation
import ArchNameService.Guarantees.Publishing
import ArchNameService.Guarantees.Submission
import ArchNameService.Guarantees.Decoding
import ArchNameService.Guarantees.Resolvers
import ArchNameService.Guarantees.Quotes
import ArchNameService.Guarantees.Profiles
import ArchNameService.Guarantees.Freshness
import ArchNameService.Guarantees.Confirmation
import ArchNameService.Guarantees.Names
import ArchNameService.Guarantees.Gateway
import ArchNameService.Guarantees.Taproot
import ArchNameService.Guarantees.Signers
import ArchNameService.Guarantees.Saving
import ArchNameService.Guarantees.Presentation
import ArchNameService.Guarantees.Identities
import ArchNameService.Guarantees.Seeds
import ArchNameService.Guarantees.PriceOrder
import ArchNameService.Guarantees.SignatureText
import ArchNameService.Guarantees.TextRecords
import ArchNameService.Guarantees.Transactions
import ArchNameService.Lib.Recency
import ArchNameService.Guarantees.SeenAccounts
import ArchNameService.Guarantees.Timeline
import ArchNameService.Guarantees.Feed
import ArchNameService.Guarantees.FailedRows
import ArchNameService.Lib.Url
import ArchNameService.Infra.IndexerProxy
import ArchNameService.Guarantees.Proxy
import ArchNameService.Guarantees.Directory
import ArchNameService.Guarantees.Session
