import SharedAi.Text.Codec
import SharedAi.Num.Float64
import SharedAi.Json.Scan
import SharedAi.Json.Reach
import SharedAi.Json.RoundTrip
import SharedAi.Data.Assoc
import SharedAi.Python.Exn
import SharedAi.ServiceKit.CanonicalJson
import SharedAi.ServiceKit.CanonicalEq
import SharedAi.ServiceKit.StrictParse
import SharedAi.ServiceKit.Freeze
import SharedAi.ServiceKit.Grant
import SharedAi.ServiceKit.Verifier
import SharedAi.ServiceKit.Request
import SharedAi.ServiceKit.RequiredClaims
import SharedAi.Control.Calls
import SharedAi.ServiceKit.Dependency
import SharedAi.ServiceKit.Binding
import SharedAi.ServiceKit.WellFormed
import SharedAi.ServiceKit.Answers
import SharedAi.Net.Channel
import SharedAi.ServiceKit.Auth
import SharedAi.ServiceKit.Protocol
import SharedAi.ServiceKit.Admission
import SharedAi.Text.Encodings
import SharedAi.Python.Format
import SharedAi.Python.FormatText
import SharedAi.Python.FormatErrors
import SharedAi.ServiceKit.Outcomes
import SharedAi.Net.Uri
import SharedAi.ServiceKit.RedeemUrl
import SharedAi.Python.IpAddress
import SharedAi.Python.UrlParse
import SharedAi.Llm.BackendUrl
import SharedAi.Llm.MaskUrl
import SharedAi.Text.Erase
import SharedAi.Llm.StripThink
import SharedAi.Llm.ThinkBlocks
import SharedAi.Llm.ThinkFree
import SharedAi.Time.Renewal
import SharedAi.ResourceGovernor.Lease
import SharedAi.ServiceKit.Issue
import SharedAi.ServiceKit.Confinement
import SharedAi.ServiceKit.Posts
import SharedAi.Control.Ledger
import SharedAi.ServiceKit.SingleUse
import SharedAi.ServiceKit.Independence
import SharedAi.ServiceKit.BrokerHeaders
import SharedAi.ServiceKit.PublicKey
import SharedAi.Python.Response
import SharedAi.Llm.Chat
import SharedAi.Llm.Completion
import SharedAi.Net.Paths
import SharedAi.ResourceGovernor.Activity
import SharedAi.ResourceGovernor.Client
import SharedAi.ServiceKit.NormalForm
import SharedAi.ServiceKit.SameOnWire
import SharedAi.Control.Trace
import SharedAi.ServiceKit.Clients
import SharedAi.Llm.Generate
import SharedAi.Num.Division
import SharedAi.Text.Words
import SharedAi.Llm.Tokens
