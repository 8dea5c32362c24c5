import ControlComponents.Storage
import ControlComponents.Lib.Calls
import ControlComponents.Lib.Cells
import ControlComponents.Fmt.Json
import ControlComponents.Pipeline.JsonDocuments
import ControlComponents.Pipeline.HttpPipeline
import ControlComponents.Storage.NvsStorage
import ControlComponents.Storage.NvsRefinement
import ControlComponents.Sensor.AnalogConfig
import ControlComponents.Sensor.AnalogConfigRuns
import ControlComponents.Lib.CString
import ControlComponents.Net.NetworkConfig
import ControlComponents.Net.Reconfiguration
import ControlComponents.Control.FsmBlock
import ControlComponents.Lib.RegisterBus
import ControlComponents.Lib.Runs
import ControlComponents.Control.CrashAtomicity
import ControlComponents.Control.FsmStore
import ControlComponents.Algo.UriOps
import ControlComponents.Core.Stream
import ControlComponents.Http.Response
import ControlComponents.Pipeline.WebGui
import ControlComponents.Pipeline.Endpoints
import ControlComponents.Algo.BitOps
import ControlComponents.Onewire.RomCodeScanner
import ControlComponents.Lib.BitStrings
import ControlComponents.Onewire.Enumeration
import ControlComponents.Core.Future
import ControlComponents.Pipeline.ScheduledRequests
import ControlComponents.Diagnostic.PersistentCounter
import ControlComponents.Core.RateLimiter
import ControlComponents.Scheduler.PeriodicTaskScheduler
import ControlComponents.Scheduler.AsyncTaskScheduler
import ControlComponents.Scheduler.AsyncFuncRuns
import ControlComponents.Core.Cond
import ControlComponents.Core.FutureWait
import ControlComponents.Sensor.Ds18b20
import ControlComponents.Sensor.SoilAnalogSensor
import ControlComponents.Net.StaNetwork
import ControlComponents.Sensor.SoilHysteresis
import ControlComponents.Onewire.ScannerAssertions
import ControlComponents.Onewire.Transport
import ControlComponents.Sensor.AnalogConfigStore
import ControlComponents.Sensor.Ds18b20Erase
import ControlComponents.Sensor.Ds18b20Temperature
import ControlComponents.Scheduler.NestedRuns
import ControlComponents.Pipeline.ConfigHandlers
import ControlComponents.Core.Version
import ControlComponents.Algo.StringOps
import ControlComponents.Sensor.Ds18b20Parse
import ControlComponents.Control.FsmDurations
import ControlComponents.Sensor.AnalogSampleReader
import ControlComponents.Sensor.Bme280
import ControlComponents.Sensor.Bme280Bus
import ControlComponents.Sensor.Bme280Life
import ControlComponents.Sensor.Sht41
import ControlComponents.Lib.BitStream
import ControlComponents.Lib.ShiftRegister
import ControlComponents.Algo.CrcOps
import ControlComponents.Onewire.BusTransport
import ControlComponents.Sensor.SoilPublished
import ControlComponents.Lib.Numerals
import ControlComponents.Net.WaitNetworkRunner
import ControlComponents.Pipeline.SensorHandlers
import ControlComponents.Pipeline.WebGuiDispatch
import ControlComponents.Pipeline.NumericParameters
import ControlComponents.Core.CondLoop
import ControlComponents.Http.ClientReader
import ControlComponents.Net.ApNetwork
import ControlComponents.Net.StoredSettings
import ControlComponents.Pipeline.SelectNetwork
import ControlComponents.Onewire.BusSimulation
import ControlComponents.Sensor.Ds18b20Bus
import ControlComponents.Sensor.Ds18b20Node
import ControlComponents.Sensor.Ds18b20Search
import ControlComponents.Pipeline.SystemCounters
import ControlComponents.Pipeline.Ds18b20Scan
