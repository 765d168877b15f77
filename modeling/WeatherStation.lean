import WeatherStation.Document.Outcome
import WeatherStation.Document.Reading
import WeatherStation.Document.Settings
import WeatherStation.Document.View
import WeatherStation.Http.Service
import WeatherStation.Main
import WeatherStation.Proofs.Ingest.Contention
import WeatherStation.Proofs.Ingest.Delivery
import WeatherStation.Proofs.Ingest.Rainfall
import WeatherStation.Proofs.Ingest.Refusals
import WeatherStation.Proofs.Sweep.Chain
import WeatherStation.Proofs.Sweep.WindowKeys
import WeatherStation.Settings.Worker
import WeatherStation.Time.Clock
import WeatherStation.Worker
import WeatherStation.Proofs.Sweep.Running
import WeatherStation.Proofs.Sweep.Complete
import WeatherStation.Proofs.Rollup.Contention
import WeatherStation.Proofs.Rollup.Undisturbed
import WeatherStation.Proofs.Commuting
import WeatherStation.Proofs.View.Commuting
import WeatherStation.Proofs.View.KeySpace
import WeatherStation.Proofs.Rain.Words
import WeatherStation.Proofs.View.Metered
import WeatherStation.Proofs.Ingest.Retries
import WeatherStation.Proofs.Ingest.Limits
import WeatherStation.Proofs.Ingest.Alone
import WeatherStation.Proofs.Ingest.Devices
import WeatherStation.Proofs.Sweep.Devices
import WeatherStation.Proofs.Journal
import WeatherStation.Proofs.Noninterference
import WeatherStation.Proofs.HoursOfDays
import WeatherStation.Proofs.Sweep.Extremes
import WeatherStation.Proofs.Document.View
import WeatherStation.Proofs.Rain.Resampling
import WeatherStation.Proofs.View.WeekFold
import WeatherStation.Proofs.Store.Versions
import WeatherStation.Proofs.Store.Scans
import WeatherStation.Proofs.View.Latest
import WeatherStation.Proofs.Sweep.Lookback
import WeatherStation.Proofs.Rain.Merging
import WeatherStation.Proofs.RetryLoops
import WeatherStation.Proofs.Sweep.Returns
import WeatherStation.Proofs.Http.LookUps
