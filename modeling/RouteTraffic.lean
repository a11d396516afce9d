import RouteTraffic.Folder
import RouteTraffic.Main
import RouteTraffic.Registry
import RouteTraffic.Proofs.ChartSpacing
import RouteTraffic.Proofs.RecorderRuns
import RouteTraffic.Proofs.RegistryOwnership
import RouteTraffic.Proofs.FirstFault
import RouteTraffic.Proofs.FileInterleaving
import RouteTraffic.Proofs.SnapshotRoundTrip
import RouteTraffic.Proofs.Redrawing
import RouteTraffic.Proofs.ChartExtent
import RouteTraffic.Proofs.SumsOfDoubles
import RouteTraffic.Proofs.MergedPoints
import RouteTraffic.Proofs.ServiceViews
import RouteTraffic.Proofs.RouteSummary
import RouteTraffic.Proofs.PollErrors
import RouteTraffic.Proofs.LenientInstants
import RouteTraffic.Proofs.TypedReading
import RouteTraffic.Proofs.DecodedServices
import RouteTraffic.Proofs.RoundedDoubles
import RouteTraffic.Proofs.DoubleValues
import RouteTraffic.Proofs.BoundedCounts
import RouteTraffic.Proofs.ChartCounts
import RouteTraffic.Proofs.JsonNumerals
import RouteTraffic.Proofs.DoubleNumerals
import RouteTraffic.Proofs.TimestampTexts
import RouteTraffic.Proofs.ReloadedDashboard
import RouteTraffic.Proofs.JsonPlaces
import RouteTraffic.Proofs.SamplePlaces
import RouteTraffic.Proofs.ReplacedValues
import RouteTraffic.Proofs.FilledSeries
import RouteTraffic.Proofs.DurationTexts
import RouteTraffic.Proofs.DecimalDurations
import RouteTraffic.Proofs.FixedDecimals
import RouteTraffic.Proofs.ByteUnits
import RouteTraffic.Proofs.RecorderOrder
import RouteTraffic.Proofs.SeriesRange
import RouteTraffic.Proofs.LocalTexts
import RouteTraffic.Proofs.DocumentForms
import RouteTraffic.Proofs.MillisecondCuts
import RouteTraffic.Proofs.ClockTimes
