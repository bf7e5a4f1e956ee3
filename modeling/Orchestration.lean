import Orchestration.Action.Basic
import Orchestration.Action.Registry
import Orchestration.Calendar.Date
import Orchestration.Calendar.Timestamp
import Orchestration.Client.Options
import Orchestration.Client.Registry
import Orchestration.Client.Tls
import Orchestration.Collection.OrderedMap
import Orchestration.Collection.SortedMap
import Orchestration.Cron.Expression
import Orchestration.Cron.Field
import Orchestration.Cron.Service
import Orchestration.Decimal.Nearest
import Orchestration.Decimal.Shortest
import Orchestration.Dispatch.Dispatcher
import Orchestration.Duration
import Orchestration.Engine.Activity
import Orchestration.Engine.Handle
import Orchestration.Engine.Local
import Orchestration.Engine.Platform
import Orchestration.Engine.Run
import Orchestration.Engine.Schedule
import Orchestration.Error
import Orchestration.Host.Basic
import Orchestration.Host.Clock
import Orchestration.Host.Platform
import Orchestration.Host.Task
import Orchestration.Http.Message
import Orchestration.Http.Route
import Orchestration.Http.Service
import Orchestration.Integration.Basic
import Orchestration.Integration.Echo
import Orchestration.Integration.Scripted
import Orchestration.Integration.Services
import Orchestration.Integration.Slack
import Orchestration.Json.Document
import Orchestration.Json.Text
import Orchestration.Json.Value
import Orchestration.Proofs.Action.Registry
import Orchestration.Proofs.Collection.FirstLast
import Orchestration.Proofs.Collection.OrderedMap
import Orchestration.Proofs.Collection.Merge
import Orchestration.Proofs.Collection.SortedMap
import Orchestration.Run.Context
import Orchestration.Run.Job
import Orchestration.Schedule.Draw
import Orchestration.Schedule.Spec
import Orchestration.Service.App
import Orchestration.Service.Config
import Orchestration.Storage.FileTree
import Orchestration.Template.Marker
import Orchestration.Template.Render
import Orchestration.Text.Blank
import Orchestration.Text.Numeral
import Orchestration.Text.Quoted
import Orchestration.Text.Unseen
import Orchestration.Text.Utf8
import Orchestration.Worker.Registration
import Orchestration.Workflow.Definition
import Orchestration.Workflow.Directory
import Orchestration.Workflow.Encoding
import Orchestration.Workflow.Reading
import Orchestration.Workflow.Registry
import Orchestration.Yaml.Character
import Orchestration.Yaml.Cursor
import Orchestration.Yaml.Node
import Orchestration.Yaml.Plain
import Orchestration.Yaml.Reading
import Orchestration.Yaml.Scalar
import Orchestration.Yaml.Scanner
import Orchestration.Yaml.Token
import Orchestration.Proofs.Run.Context
import Orchestration.Proofs.Run.Gathered
import Orchestration.Proofs.Run.Walk
import Orchestration.Proofs.Client.Connection
import Orchestration.Proofs.Client.Recorded
import Orchestration.Proofs.Dispatch.Sweep
import Orchestration.Proofs.Dispatch.Trigger
import Orchestration.Proofs.Cron.Service
import Orchestration.Proofs.Engine.CronKey
import Orchestration.Proofs.Engine.Register
import Orchestration.Proofs.Engine.Schedules
import Orchestration.Proofs.Host.Keeps
import Orchestration.Proofs.Host.Reachable
import Orchestration.Proofs.Schedule.Drawn
import Orchestration.Proofs.Dispatch.Upsert
import Orchestration.Proofs.Dispatch.InitSchedules
import Orchestration.Proofs.Template.Marker
import Orchestration.Proofs.Template.Leaves
import Orchestration.Proofs.Run.Reference
import Orchestration.Proofs.Dispatch.Settled
import Orchestration.Proofs.Worker.Register
import Orchestration.Proofs.Worker.Pass
import Orchestration.Proofs.Dispatch.Noted
import Orchestration.Proofs.Worker.Noted
import Orchestration.Proofs.Worker.Queues
import Orchestration.Proofs.Host.Procedures
import Orchestration.Proofs.Worker.Latest
import Orchestration.Proofs.Run.Masked
import Orchestration.Proofs.Run.Compile
import Orchestration.Proofs.Worker.Accounted
import Orchestration.Proofs.Host.Moves
import Orchestration.Proofs.Host.Served
import Orchestration.Proofs.Worker.Served
import Orchestration.Proofs.Worker.Lasting
import Orchestration.Proofs.Run.Replay
import Orchestration.Proofs.Engine.Life
import Orchestration.Proofs.Engine.Arena
import Orchestration.Proofs.Engine.LifeCycle
import Orchestration.Proofs.Host.Courses
import Orchestration.Proofs.Template.Pieces
import Orchestration.Proofs.Template.OnePass
import Orchestration.Proofs.Client.History
import Orchestration.Proofs.Run.Steady
import Orchestration.Proofs.Engine.Independent
import Orchestration.Proofs.Host.Independent
import Orchestration.Proofs.Host.Ticks
import Orchestration.Proofs.Dispatch.Kept
import Orchestration.Proofs.Worker.Home
import Orchestration.Proofs.Service.Start
import Orchestration.Proofs.Service.Ticks
import Orchestration.Proofs.Template.Whole
import Orchestration.Proofs.Template.Nested
import Orchestration.Proofs.Engine.InPlace
import Orchestration.Proofs.Run.Retry
import Orchestration.Proofs.Action.Resolution
import Orchestration.Proofs.Http.Events
import Orchestration.Proofs.Storage.Walk
import Orchestration.Proofs.Workflow.Directory
import Orchestration.Proofs.Cron.Words
import Orchestration.Proofs.Cron.Daily
import Orchestration.Proofs.Schedule.Named
import Orchestration.Proofs.Workflow.Written
import Orchestration.Proofs.Client.Material
import Orchestration.Proofs.Service.Settings
import Orchestration.Proofs.Integration.Checked
