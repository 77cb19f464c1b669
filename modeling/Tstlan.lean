import Tstlan.Foundations.Dict
import Tstlan.Foundations.Runs
import Tstlan.Foundations.Effect
import Tstlan.Foundations.ByteMemory
import Tstlan.Configs.Layout
import Tstlan.Devices.Io
import Tstlan.Devices.Scheme
import Tstlan.Devices.Service
import Tstlan.Auth.Models
import Tstlan.Devices.Routes
import Tstlan.Devices.WriteValue
import Tstlan.Foundations.Hex
import Tstlan.Foundations.Json
import Tstlan.Foundations.Lines
import Tstlan.Devices.Net.Protocol
import Tstlan.Devices.Net.Client
import Tstlan.Devices.Net.Shared
import Tstlan.Devices.Net.Reconnect
import Tstlan.Configs.Models
import Tstlan.Database
import Tstlan.Configs.Schemas
import Tstlan.Configs.Service
import Tstlan.Configs.Abstract
import Tstlan.Configs.Flush
import Tstlan.Configs.Prepare
import Tstlan.Configs.Refinement
import Tstlan.Configs.Sharing
import Tstlan.Configs.Listing
import Tstlan.Configs.Race
import Tstlan.Configs.Merge
import Tstlan.Configs.Interference
import Tstlan.Foundations.Url
import Tstlan.Auth.Passwords
import Tstlan.Auth.Service
import Tstlan.Auth.Middleware
import Tstlan.App
import Tstlan.Devices.Reading
import Tstlan.Auth.Sessions
import Tstlan.Configs.Mediation
import Tstlan.Effects
import Tstlan.Mediation
import Tstlan.Deactivation
import Tstlan.Auth.Expiry
import Tstlan.Configs.Noninterference
import Tstlan.Configs.LayoutRuns
import Tstlan.Foundations.Numeral
import Tstlan.Foundations.Js
import Tstlan.Web.Configs
import Tstlan.Web.Layout
import Tstlan.Web.Validation
import Tstlan.Web.RoundTrip
import Tstlan.Configs.Payloads
import Tstlan.Web.Enforcement
import Tstlan.Foundations.Window
import Tstlan.Web.Monitor
import Tstlan.Web.History
import Tstlan.Devices.Values
import Tstlan.Web.ValueEditor
import Tstlan.Web.WriteValue
import Tstlan.Devices.Devsim
import Tstlan.Devices.Snapshots
import Tstlan.Foundations.Family
import Tstlan.Devices.Net.Lazy
import Tstlan.Devices.Net.Sockets
import Tstlan.Devices.Sampler
import Tstlan.Devices.Echo
import Tstlan.Configs.Update
import Tstlan.Foundations.PyText
import Tstlan.Tools.Ini2yaml
import Tstlan.Tools.Variables
import Tstlan.Tools.Connection
import Tstlan.Web.Chart
import Tstlan.Web.DeviceGraph
import Tstlan.Web.NewConfig
import Tstlan.Foundations.Ieee
import Tstlan.Foundations.PyNumber
import Tstlan.Devices.Simulation.Signals
import Tstlan.Devices.Simulation.Engine
import Tstlan.Devices.Simulation.Sampling
import Tstlan.Devices.Simulation.Tick
import Tstlan.Devices.Simulation.Published
import Tstlan.Devices.Simulation.Isolation
import Tstlan.Devices.Simulation.Profile
import Tstlan.Devices.Simulation.Waveforms
import Tstlan.Devices.Simulation.Driver
import Tstlan.Web.Seeding
import Tstlan.Foundations.Spans
import Tstlan.Web.Brush
import Tstlan.Foundations.Loops
import Tstlan.Web.Grid
import Tstlan.Devices.Recording
import Tstlan.Foundations.JsonValue
import Tstlan.Migrations
import Tstlan.Foundations.Separate
import Tstlan.Devices.Simulation.Exact
import Tstlan.Devices.Simulation.Building
import Tstlan.Foundations.Grouping
import Tstlan.Web.ChartPanel
import Tstlan.Foundations.Percent
import Tstlan.Web.Api
import Tstlan.Identities
import Tstlan.Web.Tabs
import Tstlan.Devices.Simulation.Threads
import Tstlan.Foundations.Formats
import Tstlan.Configs.Column
import Tstlan.Web.ConfigEditor
import Tstlan.Foundations.JsonText
import Tstlan.Foundations.EventStream
import Tstlan.Web.Stream
import Tstlan.Lifetime
import Tstlan.Foundations.Rounding
import Tstlan.Devices.Simulation.Reach
import Tstlan.Devices.Simulation.Unstopped
import Tstlan.Devices.Simulation.Catalog
