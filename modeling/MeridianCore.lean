import MeridianCore.Bor.Orders.EndedPlacement
import MeridianCore.Bor.OrderDecide.FilledOrder
import MeridianCore.Bor.OrderDecide.Forest
import MeridianCore.Bor.OrderDecide.Waiting
import MeridianCore.Bor.Book.Replay
import MeridianCore.Bor.Book.LotsBalance
import MeridianCore.Bor.Booking.BookedOnce
import MeridianCore.Bor.Booking.Book
import MeridianCore.Bor.Writer
import MeridianCore.Bor.OrderDecide.OneIdentity
import MeridianCore.AnalyticsEngine.Exact.Exactness
import MeridianCore.AnalyticsEngine.Exact.Machine
import MeridianCore.AnalyticsEngine.Graph.Answer
import MeridianCore.Bor.Lifecycle.Accrued
import MeridianCore.Bor.Lifecycle.Exchanged
import MeridianCore.Bor.Lifecycle.Premium
import MeridianCore.Bor.Book.AsOf
import MeridianCore.Bor.Booking.Crossed
import MeridianCore.Domain.LocalTime
import MeridianCore.Domain.RuleChanges
import MeridianCore.Sidecar.Losses
import MeridianCore.Sidecar.Masked
import MeridianCore.Lake.Numbered
import MeridianCore.Sidecar.Conflated
import MeridianCore.Instruments.Resolve
import MeridianCore.Changes.Fenced
import MeridianCore.Instruments.Answered
import MeridianCore.Instruments.Replaced
import MeridianCore.Instruments.Concordant
import MeridianCore.Bor.Book.Encumbered
import MeridianCore.Bor.Book.Accounted
import MeridianCore.Bor.Booking.HandedOff
import MeridianCore.Bor.OrderDecide.TradeLines
import MeridianCore.Bor.Opening.Lines
import MeridianCore.Domain.Exact
import MeridianCore.Bor.Lifecycle.Claimed
import MeridianCore.Bor.OrderDecide.Product
import MeridianCore.Bor.Unified
import MeridianCore.Bor.Book.OneAsset
import MeridianCore.Domain.ExactForms
import MeridianCore.AnalyticsEngine.Bonds.Accrued
import MeridianCore.AnalyticsEngine.Bonds.Rolled
import MeridianCore.AnalyticsEngine.Pricing.Chains
import MeridianCore.AnalyticsEngine.Pricing.Worst
import MeridianCore.AnalyticsEngine.Canonical.Texts
import MeridianCore.Lake.SameValue
import MeridianCore.Lake.Query
import MeridianCore.Lake.SeriesNames
import MeridianCore.Lake.SeriesRecords
import MeridianCore.Domain.DateNumbers
import MeridianCore.Lake.Declined
import MeridianCore.Ordered.Counted
import MeridianCore.Ordered.Segmented
import MeridianCore.Instruments.Calendars
import MeridianCore.Access.Granted
import MeridianCore.Sidecar.Grants
import MeridianCore.Instruments.DateAnswers
import MeridianCore.Runtime.Lease
import MeridianCore.Runtime.OneWriter
