import Munavvar.KeyedTable
import Munavvar.Transaction
import Munavvar.ReadCommitted
import Munavvar.Database
import Munavvar.StockLedger
import Munavvar.StockConservation
import Munavvar.FinancialLedger
import Munavvar.AccountConservation
import Munavvar.Aggregation
import Munavvar.ListSummaries
import Munavvar.Bag
import Munavvar.Quota
import Munavvar.Fulfillment
import Munavvar.OrderService
import Munavvar.ContractService
import Munavvar.Operations
import Munavvar.OrderChanges
import Munavvar.OrderEffects
import Munavvar.LifecycleEffects
import Munavvar.ContractEffects
import Munavvar.QuotaConservation
import Munavvar.SettlementOnce
import Munavvar.QuotaLimit
import Munavvar.OrderTotals
import Munavvar.StockTransfers
import Munavvar.ShortageCheck
import Munavvar.FirstRead
import Munavvar.InvoiceLifecycle
import Munavvar.Journal
import Munavvar.ContractLog
import Munavvar.ContractStop
import Munavvar.ClientCancellation
import Munavvar.PriceItemRemoval
import Munavvar.StockService
import Munavvar.ClientService
import Munavvar.Company
import Munavvar.StockEffects
import Munavvar.ClientEffects
import Munavvar.StatusLog
import Munavvar.ContractPayment
import Munavvar.Discipline
import Munavvar.Interference
import Munavvar.LockOrder
import Munavvar.ContractLocks
import Munavvar.OperationLocks
import Munavvar.Headers
import Munavvar.StockRoutes
import Munavvar.InventoryOwnership
import Munavvar.DeadlockFreedom
import Munavvar.StoppedContracts
import Munavvar.Intervals
import Munavvar.Billing
import Munavvar.BilledOrders
import Munavvar.Catalog
import Munavvar.Dashboard
import Munavvar.Isolation
import Munavvar.Capitalization
import Munavvar.Gate
import Munavvar.PaymentDecision
import Munavvar.OrderInvariants
import Munavvar.OrderShape
import Munavvar.ActiveContracts
import Munavvar.Base64
import Munavvar.Keyset
import Munavvar.Numerals
import Munavvar.Pagination
import Munavvar.CursorSearch
import Munavvar.OrderLines
import Munavvar.UserService
import Munavvar.PartyAccounts
import Munavvar.InvoiceNumbers
import Munavvar.UserEffects
import Munavvar.EventRuns
import Munavvar.SystemRole
import Munavvar.PhoneNumbers
import Munavvar.Containers
import Munavvar.WarehouseNames
import Munavvar.Settlements
import Munavvar.Deliveries
import Munavvar.Pickups
import Munavvar.ContainerShortage
import Munavvar.TaraAvailability
import Munavvar.AccountStatements
import Munavvar.PartialDelivery
import Munavvar.StableSort
import Munavvar.StatementPages
import Munavvar.InventoryTrends
import Munavvar.TransferRequests
import Munavvar.CursorCodec
import Munavvar.Reconciliation
import Munavvar.ExpiredContracts
import Munavvar.Cancellations
import Munavvar.StaleOrders
import Munavvar.Independence
import Munavvar.ContractJobs
import Munavvar.ClientReplies
import Munavvar.ClientAdmission
import Munavvar.ClientAtomicity
import Munavvar.ArchivedUsers
import Munavvar.Calendar
import Munavvar.DatePresets
import Munavvar.RejectionReasons
import Munavvar.FreeText
import Munavvar.PhoneSearch
import Munavvar.Lines
import Munavvar.SqlScripts
import Munavvar.OffsetPages
import Munavvar.PagedLists
import Munavvar.Invariance
import Munavvar.PaymentDesk
import Munavvar.LedgerKeeping
import Munavvar.Transports
import Munavvar.Bootstrap
import Munavvar.MixedRuns
import Munavvar.RegistryKeeping
import Munavvar.CompanyBooks
import Munavvar.Enterprise
import Munavvar.Turnover
import Munavvar.Handovers
