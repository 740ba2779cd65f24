import Docket.Main
import Docket.CommandLine.Shelf
import Docket.Scenario.Bench
import Docket.Scenario.Session
import Docket.Proofs.Roll.InTurn
import Docket.Proofs.Issue.Skips
import Docket.Proofs.Forecast.Agrees
import Docket.Proofs.Roll.Batch
import Docket.Proofs.Issue.Transactions
import Docket.Proofs.Desk.Formats
import Docket.Proofs.Invoice.Monthly
import Docket.Proofs.Ledger.Isolation
import Docket.Proofs.Ledger.Entries
import Docket.Proofs.CommandLine.Changes
import Docket.Proofs.CommandLine.Anew
import Docket.Proofs.CommandLine.Again
import Docket.Proofs.CommandLine.Saves
import Docket.Proofs.Identifier.Origin
import Docket.Proofs.Desk.Apart
import Docket.Proofs.Forecast.Reserves
import Docket.Proofs.Issue.Returns
import Docket.Proofs.Issue.Retries
import Docket.Proofs.Issue.Stops
import Docket.Proofs.Desk.Separate
import Docket.Proofs.Identifier.WrittenBack
import Docket.Proofs.Identifier.Tampered
import Docket.Proofs.Forecast.Fails
import Docket.Proofs.Invoice.Forward
import Docket.Proofs.Issue.Waits
