import AgileSeal.Cipher.Detached
import AgileSeal.Kdf.Argon2
import AgileSeal.Kdf.Hmac
import AgileSeal.Kem.X25519
import AgileSeal.Kem.Kyber.Encapsulation
import AgileSeal.Text.Blank
import AgileSeal.Text.Utf8
import AgileSeal.Text.Natural
import AgileSeal.Text.Quoted
import AgileSeal.Decimal.Shortest
import AgileSeal.Base64
import AgileSeal.Error
import AgileSeal.Event
import AgileSeal.IdMap
import AgileSeal.Random.SplitMix
import AgileSeal.Environment
import AgileSeal.FileSystem
import AgileSeal.Suite.Algorithm
import AgileSeal.Suite.Definition
import AgileSeal.Config.Params
import AgileSeal.Kem.Mechanism
import AgileSeal.Cipher.Symmetric
import AgileSeal.Kdf.Derivation
import AgileSeal.Stretch.Cache
import AgileSeal.Bundle.Basic
import AgileSeal.Json.Skip
import AgileSeal.Json.Reader
import AgileSeal.Json.Printer
import AgileSeal.Config.Source
import AgileSeal.Keys.Derivation
import AgileSeal.Keys.KeyFile
import AgileSeal.Keys.Credentials
import AgileSeal.Service
import AgileSeal.Proofs.Base64
import AgileSeal.Proofs.Base64.Canonical
import AgileSeal.Proofs.FileSystem
import AgileSeal.Proofs.Json.RoundTrip
import AgileSeal.Proofs.Bundle.BodyFormat
import AgileSeal.Proofs.Bundle.WireFormat
import AgileSeal.Proofs.Registry.Configured
import AgileSeal.Proofs.Registry.Startup
import AgileSeal.Proofs.Registry.Memoized
import AgileSeal.Proofs.Registry.History
import AgileSeal.Proofs.Stretch.Gate
import AgileSeal.Proofs.Stretch.Accounts
import AgileSeal.Proofs.Stretch.Calls
import AgileSeal.Proofs.Search.Naive
import AgileSeal.Proofs.Search.Reconfigured
import AgileSeal.Proofs.Search.Stretching
import AgileSeal.Proofs.Operations
import AgileSeal.Proofs.Random.Script
import AgileSeal.Proofs.Kem.Agreement
import AgileSeal.Proofs.Kem.Answers
import AgileSeal.Proofs.Keys.Derivation
import AgileSeal.Proofs.Engine.RoundTrip
import AgileSeal.Proofs.Engine.Opening
import AgileSeal.Proofs.Engine.Tampering
import AgileSeal.Proofs.Handler.RoundTrip
import AgileSeal.Proofs.Keys.KeyFile
import AgileSeal.Proofs.Handler.Opening
import AgileSeal.Proofs.Handler.Draws
import AgileSeal.Proofs.Handler.Errors
import AgileSeal.Proofs.Handler.Recognition
import AgileSeal.Proofs.Service.Lookups
import AgileSeal.Proofs.Service.RoundTrip
import AgileSeal.Proofs.Service.Opening
import AgileSeal.Proofs.Service.Arguments
import AgileSeal.Proofs.Service.Errors
import AgileSeal.Proofs.Service.Migration
import AgileSeal.Proofs.Service.Freshness
import AgileSeal.Proofs.Hash.PackedKeccak
import AgileSeal.Proofs.Hash.PackedBlake2b
import AgileSeal.Proofs.Kdf.PackedArgon2
import AgileSeal.Proofs.Kem.Kyber.Coding
import AgileSeal.Proofs.Kem.Kyber.Packed
import AgileSeal.Proofs.Engine.Refusals
import AgileSeal.Proofs.Engine.Recovery
import AgileSeal.Proofs.Engine.Failures
import AgileSeal.Proofs.Handler.Refusals
import AgileSeal.Proofs.Search.Reports
import AgileSeal.Proofs.Service.Reports
import AgileSeal.Proofs.Service.KeyFiles
import AgileSeal.Proofs.Service.Failures
import AgileSeal.Proofs.Search.Refusals
import AgileSeal.Proofs.Bundle.Framing
import AgileSeal.Proofs.Search.Ties
import AgileSeal.Proofs.Json.Numbers
import AgileSeal.Proofs.Json.Collections
import AgileSeal.Proofs.Config.Document
import AgileSeal.Proofs.Search.Probe
import AgileSeal.Proofs.Engine.Labels
import AgileSeal.Proofs.Handler.Labels
import AgileSeal.Proofs.Service.Openers
import AgileSeal.Proofs.Stretch.Limits
import AgileSeal.Proofs.Cipher.Symmetric
import AgileSeal.Proofs.Handler.Costs
import AgileSeal.Proofs.Config.Source
import AgileSeal.Proofs.Suite.Names
import AgileSeal.Proofs.Text.Natural
import AgileSeal.Proofs.Json.Spelling
import AgileSeal.Proofs.Json.Tokens
import AgileSeal.Proofs.Json.Objects
import AgileSeal.Proofs.Suite.Table
import AgileSeal.Proofs.Config.Tables
