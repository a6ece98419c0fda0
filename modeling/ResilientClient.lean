import ResilientClient.Argument
import ResilientClient.Binary64.Basic
import ResilientClient.Binary64.Shortest
import ResilientClient.Body
import ResilientClient.Breaker.Basic
import ResilientClient.Breaker.Registry
import ResilientClient.Bytes
import ResilientClient.Client.Basic
import ResilientClient.Client.Builder
import ResilientClient.Client.Method
import ResilientClient.Config.Basic
import ResilientClient.Config.Json
import ResilientClient.Duration.Basic
import ResilientClient.Duration.Human
import ResilientClient.Duration.Seconds
import ResilientClient.Endpoint
import ResilientClient.Error
import ResilientClient.Expansion
import ResilientClient.Fiber
import ResilientClient.Fiber.Lemmas
import ResilientClient.Grouping
import ResilientClient.Http.Date
import ResilientClient.Http.Header
import ResilientClient.Http.RetryAfter
import ResilientClient.Http.Status
import ResilientClient.Http.Uri
import ResilientClient.HttpTransport
import ResilientClient.Interceptor
import ResilientClient.Json.Decoder
import ResilientClient.Json.Number
import ResilientClient.Json.Parser
import ResilientClient.Json.Text
import ResilientClient.Json.Value
import ResilientClient.Listener
import ResilientClient.Ndjson
import ResilientClient.Pipeline.Balance
import ResilientClient.Pipeline.Call
import ResilientClient.Pipeline.Execute
import ResilientClient.Pipeline.Guard
import ResilientClient.Pipeline.Retry
import ResilientClient.Pipeline.World
import ResilientClient.Power
import ResilientClient.Proofs.Breaker.LateTrials
import ResilientClient.Proofs.Breaker.Opening
import ResilientClient.Proofs.Breaker.Operations
import ResilientClient.Proofs.Breaker.Rounds
import ResilientClient.Proofs.Breaker.Session
import ResilientClient.Proofs.Breaker.Trials
import ResilientClient.Proofs.Breaker.Window
import ResilientClient.Rehearsal.Act
import ResilientClient.Rehearsal.Circuit
import ResilientClient.Rehearsal.Display.Basic
import ResilientClient.Rehearsal.Display.Reports
import ResilientClient.Rehearsal.Edit
import ResilientClient.Rehearsal.Jitter
import ResilientClient.Rehearsal.Layers
import ResilientClient.Rehearsal.Peers
import ResilientClient.Rehearsal.Resolution
import ResilientClient.Rehearsal.Script
import ResilientClient.Request
import ResilientClient.Resolver.RoundRobin
import ResilientClient.Resolver.Subscription
import ResilientClient.Response
import ResilientClient.Retry.Backoff
import ResilientClient.Retry.Policy
import ResilientClient.StatusHandler
import ResilientClient.Target
import ResilientClient.Template
import ResilientClient.Text.Blank
import ResilientClient.Text.Form
import ResilientClient.Text.Hidden
import ResilientClient.Text.Join
import ResilientClient.Text.Percent
import ResilientClient.Text.Quoted
import ResilientClient.Text.Utf8
import ResilientClient.Trace
import ResilientClient.Proofs.Breaker.Admission
import ResilientClient.Proofs.Fiber.Crowd
import ResilientClient.Proofs.Breaker.Registry
import ResilientClient.Proofs.Fiber.Alike
import ResilientClient.Proofs.Pipeline.Record
import ResilientClient.Proofs.Pipeline.Served
import ResilientClient.Proofs.Pipeline.Accounts
import ResilientClient.Proofs.Pipeline.OpenCircuit
import ResilientClient.Proofs.Pipeline.Preview
import ResilientClient.Proofs.Pipeline.Blame
import ResilientClient.Proofs.Client.Build
import ResilientClient.Proofs.Client.ClientErrors
import ResilientClient.Proofs.Pipeline.Faults
import ResilientClient.Proofs.Pipeline.Reading
import ResilientClient.Proofs.Text.Lossy
import ResilientClient.Proofs.Pipeline.PreviewSize
import ResilientClient.Proofs.Pipeline.Journey
import ResilientClient.Proofs.Pipeline.Stays
import ResilientClient.Proofs.Pipeline.Retries
import ResilientClient.Proofs.Pipeline.Sending
import ResilientClient.Proofs.Client.Invocation
import ResilientClient.Proofs.Client.Courses
import ResilientClient.Proofs.Client.FinalFailures
import ResilientClient.Proofs.Client.Amplification
import ResilientClient.Proofs.Client.Scanning
import ResilientClient.Proofs.Text.Trimming
import ResilientClient.Proofs.Text.Written
import ResilientClient.Proofs.Template.Division
import ResilientClient.Proofs.Template.Expansion
import ResilientClient.Proofs.Expansion.Address
import ResilientClient.Proofs.Expansion.Authority
import ResilientClient.Proofs.Expansion.Placement
import ResilientClient.Proofs.Expansion.Declared
import ResilientClient.Proofs.Expansion.QueryPairs
import ResilientClient.Proofs.Expansion.HeaderGroups
import ResilientClient.Proofs.Expansion.Layout
import ResilientClient.Proofs.Pipeline.Timetable
import ResilientClient.Proofs.Client.SameRequest
import ResilientClient.Proofs.Pipeline.Bare
import ResilientClient.Proofs.Client.Failures
import ResilientClient.Proofs.Client.Exhaustion
import ResilientClient.Proofs.Pipeline.Passage
import ResilientClient.Proofs.Pipeline.Tripping
import ResilientClient.Proofs.Client.Series
import ResilientClient.Proofs.Fiber.Abides
import ResilientClient.Proofs.Pipeline.Ledger
import ResilientClient.Proofs.Pipeline.Refusal
import ResilientClient.Proofs.Client.OneShot
import ResilientClient.Proofs.Client.Lines
import ResilientClient.Proofs.Client.ExpansionFailures
import ResilientClient.Proofs.Resolver.Rotation
import ResilientClient.Proofs.Pipeline.Narration
import ResilientClient.Proofs.Client.Instrumentation
import ResilientClient.Proofs.Client.Delivery
import ResilientClient.Proofs.Client.Interception
import ResilientClient.Proofs.Breaker.Keys
import ResilientClient.Proofs.Client.Decode404
import ResilientClient.Proofs.Client.Failover
import ResilientClient.Proofs.Client.Isolation
import ResilientClient.Proofs.Resolver.Feed
import ResilientClient.Proofs.Pipeline.Nesting
import ResilientClient.Proofs.Client.Checks
import ResilientClient.Proofs.Client.HeaderRules
import ResilientClient.Proofs.Config.ReadBack
import ResilientClient.Proofs.Pipeline.Flattening
import ResilientClient.Proofs.Pipeline.Counting
import ResilientClient.Proofs.Template.Repetition
import ResilientClient.Proofs.Retry.Limits
