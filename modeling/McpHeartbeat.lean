import McpHeartbeat.Base.Machine
import McpHeartbeat.Base.Link
import McpHeartbeat.Base.Register
import McpHeartbeat.Base.Calendar
import McpHeartbeat.Base.Code
import McpHeartbeat.Base.Rekey
import McpHeartbeat.Base.Runs
import McpHeartbeat.Base.Rose
import McpHeartbeat.Base.Octets
import McpHeartbeat.Base.Search
import McpHeartbeat.Base.Keyed
import McpHeartbeat.Base.Joined
import McpHeartbeat.Py.Str
import McpHeartbeat.Py.Json
import McpHeartbeat.Py.Dump
import McpHeartbeat.Py.Convert
import McpHeartbeat.Py.Text
import McpHeartbeat.Py.Quote
import McpHeartbeat.Py.Canon
import McpHeartbeat.Py.Loads
import McpHeartbeat.Py.ReadBack
import McpHeartbeat.Py.Wire
import McpHeartbeat.Py.Indent
import McpHeartbeat.Py.Datetime
import McpHeartbeat.Core.Errors
import McpHeartbeat.Core.Model
import McpHeartbeat.Core.Validation
import McpHeartbeat.Core.Lineage
import McpHeartbeat.Core.Ports
import McpHeartbeat.Core.Clock
import McpHeartbeat.Core.Reading
import McpHeartbeat.Core.Timestamp
import McpHeartbeat.Core.Digest
import McpHeartbeat.Core.Judgement
import McpHeartbeat.Core.History
import McpHeartbeat.Core.ClosedForm
import McpHeartbeat.Core.Replay
import McpHeartbeat.Core.Duplicate
import McpHeartbeat.Core.Ignorable
import McpHeartbeat.Core.Totality
import McpHeartbeat.Core.Reasons
import McpHeartbeat.Core.Issuer
import McpHeartbeat.Core.Schema
import McpHeartbeat.Core.RoundTrip
import McpHeartbeat.Core.Canonical
import McpHeartbeat.Core.Follower
import McpHeartbeat.Current.Contract
import McpHeartbeat.Current.Errors
import McpHeartbeat.Current.Discovery
import McpHeartbeat.Current.Advertising
import McpHeartbeat.Current.Addressing
import McpHeartbeat.Current.Identity
import McpHeartbeat.Current.Principals
import McpHeartbeat.Current.Convergence
import McpHeartbeat.Current.Refetch
import McpHeartbeat.Current.Schedule
import McpHeartbeat.Current.Freshness
import McpHeartbeat.Current.Deadline
import McpHeartbeat.Current.Coalescing
import McpHeartbeat.Current.Subscriptions
import McpHeartbeat.Current.HintParsing
import McpHeartbeat.Current.Stream
import McpHeartbeat.Current.Metadata
import McpHeartbeat.Current.Mirroring
import McpHeartbeat.Current.Era
import McpHeartbeat.Current.Requests
import McpHeartbeat.Current.Lint
import McpHeartbeat.Legacy.Errors
import McpHeartbeat.Legacy.Era
import McpHeartbeat.Legacy.Capabilities
import McpHeartbeat.Legacy.Session
import McpHeartbeat.Legacy.Lifecycle
import McpHeartbeat.Legacy.Agreement
import McpHeartbeat.Legacy.Identity
import McpHeartbeat.Legacy.Client
import McpHeartbeat.Legacy.Handshake
import McpHeartbeat.Legacy.Bilateral
import McpHeartbeat.Legacy.Reader
import McpHeartbeat.Legacy.Resources
import McpHeartbeat.Cleanroom.Participant
import McpHeartbeat.Cleanroom.Validators
import McpHeartbeat.Cleanroom.Digests
import McpHeartbeat.Cleanroom.Judgement
import McpHeartbeat.Cleanroom.Simulation
import McpHeartbeat.Cleanroom.Replay
import McpHeartbeat.Cleanroom.Interop
import McpHeartbeat.Core.Transport
import McpHeartbeat.Conformance.Verdicts
import McpHeartbeat.Conformance.Release
import McpHeartbeat.Conformance.Adjudication
import McpHeartbeat.Conformance.SharedRuns
import McpHeartbeat.Eras.Binders
import McpHeartbeat.Eras.Authority
import McpHeartbeat.Eras.Hints
import McpHeartbeat.Eras.Announcements
import McpHeartbeat.Eras.Confusion
import McpHeartbeat.Eras.Identifiers
import McpHeartbeat.Eras.Addresses
import McpHeartbeat.Current.Publication
import McpHeartbeat.Current.Tenants
import McpHeartbeat.Current.Delivery
import McpHeartbeat.Current.Feed
import McpHeartbeat.Current.SdkContract
import McpHeartbeat.Conformance.DualEra
import McpHeartbeat.Tools.Requirement
import McpHeartbeat.Tools.Sdist
import McpHeartbeat.Demo.Participant
import McpHeartbeat.Demo.Observer
import McpHeartbeat.Conformance.Fleet
import McpHeartbeat.Conformance.SplitBrain
import McpHeartbeat.Conformance.Outage
import McpHeartbeat.Conformance.Attestation
import McpHeartbeat.Conformance.SdkLeg
import McpHeartbeat.Conformance.Endpoint
