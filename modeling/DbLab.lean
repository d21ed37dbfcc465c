import DbLab.Txlab.Snapshot
import DbLab.Py.Exec
import DbLab.Txlab.AuditSpec
import DbLab.Txlab.OrderSpec
import DbLab.Txlab.Accounts
import DbLab.Txlab.Oracle
import DbLab.Py.Scan
import DbLab.Py.RoundTrip
import DbLab.Py.Equality
import DbLab.Py.Reference
import DbLab.Txlab.Corruption
import DbLab.Txlab.Digest
import DbLab.Store.Engine
import DbLab.Store.Hoare
import DbLab.Store.Soundness
import DbLab.Store.Table
import DbLab.Txlab.Database
import DbLab.Txlab.Repository
import DbLab.Txlab.Bookkeeping
import DbLab.Txlab.Books
import DbLab.Txlab.Statements
import DbLab.Txlab.Commits
import DbLab.Txlab.Checkout
import DbLab.Txlab.Refund
import DbLab.Txlab.Auditable
import DbLab.Store.Solo
import DbLab.Txlab.Calls
import DbLab.Txlab.ExactlyOnce
import DbLab.Data.Framing
import DbLab.Py.Int
import DbLab.Redis.Resp
import DbLab.Redis.Framing
import DbLab.Proc.Program
import DbLab.Redis.Connection
import DbLab.Redis.Sync
import DbLab.Galera.Bank
import DbLab.Galera.Workload
import DbLab.Galera.Moves
import DbLab.Galera.Safe
import DbLab.Store.Window
import DbLab.Galera.Truthful
import DbLab.Perf.Guard
import DbLab.Perf.Invariant
import DbLab.Perf.Recovery
import DbLab.Perf.Restores
import DbLab.Ansible.Policy
import DbLab.Ansible.Command
import DbLab.Ansible.Consent
import DbLab.Ansible.Controllers
import DbLab.Ansible.Accepted
import DbLab.Store.Drive
import DbLab.Mvp.Orders
import DbLab.Mvp.Snapshot
import DbLab.Py.DateTime
import DbLab.Mvp.Columns
import DbLab.Mvp.Database
import DbLab.Mvp.Backup
import DbLab.Mvp.Carried
import DbLab.Mvp.Restored
import DbLab.Mvp.Integrity
import DbLab.Py.Encodings
import DbLab.Py.Iso
import DbLab.Py.Literals
import DbLab.Mvp.Events
import DbLab.Mvp.Messages
import DbLab.Mvp.Quarantine
import DbLab.Mvp.Storefront
import DbLab.Data.Fence
import DbLab.Mvp.History
import DbLab.Mvp.Search
import DbLab.Py.Size
import DbLab.Mvp.Transport
import DbLab.Mvp.Repair
import DbLab.Mvp.Envelope
import DbLab.Mvp.Ledger
import DbLab.Mvp.Repairs
import DbLab.Mvp.Outbox
import DbLab.Seed.Budget
import DbLab.Mvp.Health
import DbLab.Mvp.Readiness
import DbLab.Py.Nesting
import DbLab.Data.Like
import DbLab.Py.UrlSafe
import DbLab.Mvp.OrderPage
import DbLab.Data.Keyset
import DbLab.Mvp.Pagination
import DbLab.Py.Text
import DbLab.Mvp.Journal
import DbLab.Mvp.Inspection
import DbLab.Py.Round
import DbLab.Mvp.Plan
import DbLab.Mvp.Schedule
import DbLab.Mvp.Admission
import DbLab.Data.Tiles
import DbLab.Mvp.Windows
import DbLab.Mvp.Study
import DbLab.Mvp.Classes
import DbLab.Redis.Handed
import DbLab.Redis.Load
import DbLab.Redis.Accounting
import DbLab.Redis.Accounted
import DbLab.Galera.Bootstrap
import DbLab.Bench.Compare
import DbLab.Kafka.Scan
import DbLab.Galera.Scenario
import DbLab.Galera.Simulator
import DbLab.Js.Text
import DbLab.Mvp.HttpPolicy
import DbLab.Mvp.ManualOrder
import DbLab.Redis.Proxy
import DbLab.Redis.Forwarding
import DbLab.Redis.Singleflight
import DbLab.Mvp.Stack
import DbLab.Mvp.Retained
import DbLab.Bench.Elastic
import DbLab.Bench.Slots
import DbLab.Store.Aborts
import DbLab.Txlab.Atomic
import DbLab.Store.Thread
import DbLab.Mvp.Evidence
import DbLab.Seed.Bulk
import DbLab.Seed.Delivery
import DbLab.Seed.Loading
import DbLab.Mvp.Consumers
import DbLab.Redis.Restored
import DbLab.Mvp.Exclusion
import DbLab.Mvp.OrderBook
import DbLab.Mvp.OrderPrograms
import DbLab.Mvp.OrderCalls
import DbLab.Mvp.OrderStore
import DbLab.Store.Embed
import DbLab.Mvp.Pipeline
import DbLab.Mvp.Projection
import DbLab.Mvp.Drill
