import Sahl.Lib.Checked
import Sahl.Lib.Lists
import Sahl.Lib.Text
import Sahl.Lib.Replay
import Sahl.Lib.HashChain
import Sahl.Lib.Json
import Sahl.Lib.Rounding
import Sahl.Lib.Apportion
import Sahl.Lib.Contest
import Sahl.Lib.Transition
import Sahl.Lib.Delimited
import Sahl.Lib.Counts
import Sahl.Lib.Decimal
import Sahl.Lib.CheckDigit
import Sahl.Lib.Tlv
import Sahl.Lib.Base64
import Sahl.Lib.Framing
import Sahl.Lib.Keyed
import Sahl.Lib.Drain
import Sahl.Core.Ids
import Sahl.Core.Money
import Sahl.Core.Allocation
import Sahl.Core.WholeShares
import Sahl.Core.Tax
import Sahl.Core.Discounts
import Sahl.Core.Returns
import Sahl.Core.Refunds
import Sahl.Core.Quotients
import Sahl.Core.Sale
import Sahl.Core.Figures
import Sahl.Core.Split
import Sahl.Core.SaleCash
import Sahl.Core.SaleHistory
import Sahl.Core.Day
import Sahl.Core.ShiftReport
import Sahl.Core.Ringing
import Sahl.Core.Splitting
import Sahl.Core.Settled
import Sahl.Core.DayRows
import Sahl.Core.Reconciling
import Sahl.Core.ProductRows
import Sahl.Core.DayOrder
import Sahl.Core.DrawerReport
import Sahl.Core.Refusals
import Sahl.Core.Abandoned
import Sahl.Core.Leases
import Sahl.Core.Shift
import Sahl.Core.Oversells
import Sahl.Core.Inventory
import Sahl.Core.StockConservation
import Sahl.Core.Picking
import Sahl.Core.LowStock
import Sahl.Core.Staff
import Sahl.Core.Authority
import Sahl.Core.Audit
import Sahl.Core.Outliers
import Sahl.Core.Purchasing
import Sahl.Core.Receiving
import Sahl.Core.Discrepancies
import Sahl.Core.Transfers
import Sahl.Core.Catalogue
import Sahl.Core.Scanning
import Sahl.Core.Choices
import Sahl.Core.Import
import Sahl.Core.ImportRows
import Sahl.Core.ImportPrices
import Sahl.Core.CatalogueEdits
import Sahl.Core.CatalogueMerge
import Sahl.Core.Kitchen
import Sahl.Core.Floor
import Sahl.Core.FloorLabels
import Sahl.Core.Outlet
import Sahl.Core.Scale
import Sahl.Core.Ledger
import Sahl.Core.InvoiceChain
import Sahl.Core.Event
import Sahl.Core.EventChain
import Sahl.Core.FailedSeals
import Sahl.Core.EventTable
import Sahl.Fiscal.Invoice
import Sahl.Fiscal.Mushak
import Sahl.Fiscal.Zatca
import Sahl.Fiscal.Regimes
import Sahl.Fiscal.Coverage
import Sahl.Escpos.Command
import Sahl.Escpos.Receipt
import Sahl.Escpos.Document
import Sahl.Escpos.Texts
import Sahl.Sync.Plan
import Sahl.Terminal.Store
import Sahl.Server.Ingest
import Sahl.Server.LogIntegrity
import Sahl.Server.Push
import Sahl.Server.Routes
import Sahl.Server.Signing
import Sahl.Server.Enrollment
import Sahl.Sync.Engine
import Sahl.Sync.PullCompleteness
import Sahl.Sync.PushSafety
import Sahl.Sync.Draining
import Sahl.Sync.Http
import Sahl.Terminal.Payload
import Sahl.Terminal.Terminal
import Sahl.Terminal.Shifts
import Sahl.Terminal.OwnLog
import Sahl.Terminal.Loading
import Sahl.Terminal.Desk
import Sahl.Terminal.Attended
import Sahl.Terminal.Importing
import Sahl.Terminal.Forms
import Sahl.Terminal.Gates
import Sahl.Terminal.Tables
import Sahl.Server.Reports
import Sahl.Server.DayWindows
import Sahl.Terminal.Book
import Sahl.Terminal.FailedCalls
import Sahl.Terminal.Commands
import Sahl.Terminal.Views
import Sahl.Terminal.Receipts
import Sahl.Terminal.Ringable
import Sahl.Terminal.Independence
import Sahl.Terminal.Rebuild
import Sahl.Terminal.Restart
import Sahl.Terminal.Invoices
import Sahl.Terminal.Booting
import Sahl.Terminal.CatalogueOrder
import Sahl.Terminal.Resuming
import Sahl.Terminal.Kitchen
import Sahl.Terminal.Settlements
import Sahl.Terminal.DayReport
import Sahl.Terminal.Freshness
import Sahl.Terminal.Drawer
import Sahl.Terminal.HeldTickets
import Sahl.Ui.Format
import Sahl.Server.Tenancy
import Sahl.Sync.Agreement
import Sahl.Sync.Convergence
import Sahl.Terminal.Siblings
import Sahl.Sync.Backoff
import Sahl.Terminal.Scheduler
import Sahl.Lib.Numeral
import Sahl.Core.Columns
import Sahl.Terminal.Database
import Sahl.Terminal.Deliveries
import Sahl.Sync.Authenticity
import Sahl.Core.Feed
import Sahl.Terminal.Labels
