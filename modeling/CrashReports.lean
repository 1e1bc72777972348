import CrashReports.Proofs.Crash.Chart
import CrashReports.Proofs.Crash.Consolidation
import CrashReports.Proofs.Crash.Decoding
import CrashReports.Proofs.Crash.TextQuery
import CrashReports.Proofs.Http.Composition
import CrashReports.Proofs.Http.Parameters
import CrashReports.Proofs.Store.Conservation
import CrashReports.Proofs.Store.EventOrder
import CrashReports.Proofs.Store.FetchFailure
import CrashReports.Proofs.Store.InsertionOrder
import CrashReports.Proofs.Store.LegendOrder
import CrashReports.Proofs.Store.Opening
import CrashReports.Proofs.Store.RangeFilter
import CrashReports.Proofs.Store.ShownDay
import CrashReports.Proofs.Store.ShownTime
import CrashReports.Proofs.Store.Splitting
import CrashReports.Proofs.Store.LayoutChoice
import CrashReports.Proofs.Store.TimestampRoundTrip
import CrashReports.Proofs.Crash.Filling
import CrashReports.Proofs.Crash.Flattening
import CrashReports.Proofs.Crash.Resumption
import CrashReports.Proofs.Crash.Independence
import CrashReports.Proofs.Crash.Lookup
import CrashReports.Proofs.Settings.Loading
