import Gateway.Calendar
import Gateway.Call.Binding
import Gateway.Call.Failure
import Gateway.Call.Invocation
import Gateway.Call.Payload
import Gateway.Call.Result
import Gateway.Config
import Gateway.Construction
import Gateway.Cors.Policy
import Gateway.Dispatch
import Gateway.Endpoint
import Gateway.Entries
import Gateway.Error
import Gateway.Fault
import Gateway.Http.Envelope
import Gateway.Http.Form
import Gateway.Http.Headers
import Gateway.Http.Host
import Gateway.Http.Message
import Gateway.Http.Punycode
import Gateway.Http.Status
import Gateway.Http.Url
import Gateway.Http.Web
import Gateway.Json.Reader
import Gateway.Json.Writer
import Gateway.Log.Event
import Gateway.Log.Level
import Gateway.Log.Logger
import Gateway.Log.Redaction
import Gateway.Log.RequestId
import Gateway.Number.Arithmetic
import Gateway.Number.Basic
import Gateway.Number.Radix
import Gateway.Number.Reader
import Gateway.Number.Shortest
import Gateway.Proofs.BoundArguments
import Gateway.Proofs.Conversions
import Gateway.Proofs.CorsHeaders
import Gateway.Proofs.EntryKeys
import Gateway.Proofs.Pipeline
import Gateway.Proofs.RoutedCalls
import Gateway.Proofs.SchemaParts
import Gateway.Proofs.ServiceTables
import Gateway.Proofs.TemplateCaptures
import Gateway.Proofs.UnionFiling
import Gateway.Route.Table
import Gateway.Schema.Basic
import Gateway.Schema.Check
import Gateway.Schema.Choice
import Gateway.Schema.Convert
import Gateway.Schema.Describe
import Gateway.Schema.Direction
import Gateway.Schema.ErrorClass
import Gateway.Schema.Raise
import Gateway.Schema.Verdict
import Gateway.Schema.Wire
import Gateway.Service.Basic
import Gateway.Service.Handlers
import Gateway.Service.Procedure
import Gateway.Template.Basic
import Gateway.Template.Match
import Gateway.Text.Blank
import Gateway.Text.Case
import Gateway.Text.Contains
import Gateway.Text.Percent
import Gateway.Text.Split
import Gateway.Text.Units
import Gateway.Text.Utf8
import Gateway.Transport.Body
import Gateway.Transport.Server
import Gateway.Transport.Stream
import Gateway.Value.Basic
import Gateway.Value.Inspect
import Gateway.Value.Members
import Gateway.Value.Text
import Gateway.Proofs.ProperSchemas
import Gateway.Proofs.DecodedValues
import Gateway.Proofs.SettledSchemas
import Gateway.Proofs.HandlerArguments
import Gateway.Proofs.Rounding
import Gateway.Proofs.ShortestDigits
import Gateway.Proofs.JsonNumbers
import Gateway.Proofs.JsonTexts
import Gateway.Proofs.Utf8Bytes
import Gateway.Proofs.JsonValues
import Gateway.Proofs.ReadableResults
import Gateway.Proofs.CompiledTemplates
import Gateway.Proofs.UnitTexts
import Gateway.Proofs.RouteOrder
import Gateway.Proofs.AnswerSources
import Gateway.Proofs.ProtocolAgreement
import Gateway.Proofs.PercentTexts
import Gateway.Proofs.TemplateExpansion
import Gateway.Proofs.AnswerHeaders
import Gateway.Proofs.CommaLists
import Gateway.Proofs.AnnouncedMethods
import Gateway.Proofs.GrantedOrigins
import Gateway.Proofs.ChunkedBodies
import Gateway.Proofs.StreamedRequests
import Gateway.Proofs.TwinEndpoints
import Gateway.Proofs.RequestTraces
import Gateway.Proofs.HiddenFaults
import Gateway.Proofs.ParsedBodies
import Gateway.Proofs.RedactedLogs
import Gateway.Proofs.LeastFillings
import Gateway.Proofs.TemplateGrammar
import Gateway.Proofs.MatchedPaths
import Gateway.Proofs.QuerySegments
import Gateway.Proofs.ConsistentTables
import Gateway.Proofs.SharedCaptures
import Gateway.Proofs.ArgumentSources
import Gateway.Proofs.GreatestMatches
import Gateway.Proofs.OriginLabels
import Gateway.Proofs.GroundedSchemas
import Gateway.Proofs.NullishSchemas
import Gateway.Proofs.OptionalSchemas
import Gateway.Proofs.HandlerTables
import Gateway.Proofs.ListArguments
import Gateway.Proofs.RedactionBounds
import Gateway.Proofs.UnsignedReading
import Gateway.Proofs.UriArguments
import Gateway.Proofs.AcceptedTemplates
import Gateway.Proofs.MatchResults
import Gateway.Proofs.RadixIntegers
import Gateway.Proofs.RequestIds
import Gateway.Proofs.BodyReading
import Gateway.Proofs.FormQueries
import Gateway.Proofs.MergedHeaders
import Gateway.Proofs.SentHeaders
import Gateway.Proofs.CanonicalHeaders
