import OraOS.Lib.Transition
import OraOS.Lib.Transactions
import OraOS.Lib.Tally
import OraOS.Lib.KeyIndex
import OraOS.Lib.Grouping
import OraOS.Lib.Drain
import OraOS.Lib.Requests
import OraOS.Lib.Sessions
import OraOS.Lib.Quota
import OraOS.Lib.Scripts
import OraOS.Lib.Journal
import OraOS.Lib.Outcome
import OraOS.Lib.RowSecurity
import OraOS.Lib.Tenants
import OraOS.Lib.Alternation
import OraOS.Lib.Pairing
import OraOS.Lib.Acyclic
import OraOS.Lib.EditDistance
import OraOS.Lib.Paging
import OraOS.Lib.Spread
import OraOS.Lib.Csv
import OraOS.Lib.Replica
import OraOS.Api.Base
import OraOS.Api.Tables
import OraOS.Api.Text
import OraOS.Inventory.Ledger
import OraOS.Inventory.Prep
import OraOS.Inventory.Fefo
import OraOS.Inventory.Depletion
import OraOS.Inventory.Movements
import OraOS.Inventory.Batches
import OraOS.Inventory.RecipeGraph
import OraOS.Inventory.BatchRace
import OraOS.Inventory.Wasting
import OraOS.Inventory.StockCounts
import OraOS.Inventory.CountRace
import OraOS.Inventory.CountSerial
import OraOS.Procurement.PurchaseOrders
import OraOS.Procurement.ReceiveRace
import OraOS.Marketing.Coupons
import OraOS.Loyalty.Ledger
import OraOS.Loyalty.Rules
import OraOS.Loyalty.OrderEntries
import OraOS.Loyalty.Manual
import OraOS.Loyalty.PointsRace
import OraOS.Orders.Status
import OraOS.Orders.Lines
import OraOS.Orders.ModifierRules
import OraOS.Orders.Create
import OraOS.Orders.Lifecycle
import OraOS.Orders.Payments
import OraOS.Orders.HoldThenPlace
import OraOS.Orders.Regrouping
import OraOS.Orders.RowsFit
import OraOS.Orders.Serial
import OraOS.Orders.IngredientUnits
import OraOS.Orders.BatchEffect
import OraOS.Orders.BatchBounds
import OraOS.Orders.StockLevels
import OraOS.Orders.CountedTrade
import OraOS.Orders.Reversal
import OraOS.Orders.MoneyLedger
import OraOS.Orders.HeldOrders
import OraOS.Orders.SalesFigures
import OraOS.Orders.LoyaltyEffect
import OraOS.Orders.Trail
import OraOS.Orders.RefundedPoints
import OraOS.Orders.StatusRace
import OraOS.Orders.RefundRace
import OraOS.Orders.KeyedCalls
import OraOS.Orders.CreateStatements
import OraOS.Orders.CreateRace
import OraOS.Orders.CreateOnce
import OraOS.Orders.CouponRace
import OraOS.Orders.DrawRace
import OraOS.Orders.Cart
import OraOS.Orders.Till
import OraOS.Catalogue.Modifiers
import OraOS.Catalogue.Upsells
import OraOS.Orders.ModifierSheet
import OraOS.Orders.Charge
import OraOS.Orders.Paging
import OraOS.Kitchen.Board
import OraOS.Kitchen.Sync
import OraOS.Kitchen.Landing
import OraOS.Procurement.Reorder
import OraOS.Tenancy.Rls
import OraOS.Tenancy.Restaurants
import OraOS.Tenancy.Staff
import OraOS.Tenancy.Attendance
import OraOS.Tenancy.Timesheets
import OraOS.Auth.Claims
import OraOS.Auth.Tables
import OraOS.Auth.Sessions
import OraOS.Auth.Statements
import OraOS.Auth.SignOut
import OraOS.Auth.Reuse
import OraOS.Auth.OneLive
import OraOS.Auth.Bystanders
import OraOS.Auth.Page
import OraOS.Auth.Epochs
import OraOS.Tenancy.Invites
import OraOS.Tenancy.Owners
import OraOS.Tenancy.PendingInvites
import OraOS.Auth.Accounts
import OraOS.Auth.ResetLinks
import OraOS.Realtime.Gateway
import OraOS.MenuImport.Match
import OraOS.MenuImport.EditDistance
import OraOS.MenuImport.Import
import OraOS.MenuImport.Unpoisoned
import OraOS.Menus.Tables
import OraOS.Menus.Requests
import OraOS.Menus.Isolation
import OraOS.Menus.Reorder
import OraOS.Cash.Drawer
import OraOS.Cash.CloseRace
import OraOS.Cash.Shifts
import OraOS.Reports.Sales
import OraOS.Reports.Reconciled
import OraOS.Reports.Voids
import OraOS.Customers.Directory
import OraOS.Customers.Segments
import OraOS.Reports.Receipt
import OraOS.Reports.Series
import OraOS.Reports.Settlement
import OraOS.Reports.CsvExport
