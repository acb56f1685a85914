import SignedFacts.Engine.Basic
import SignedFacts.Engine.Error
import SignedFacts.Engine.Handle
import SignedFacts.Engine.Settings
import SignedFacts.Engine.Tokens
import SignedFacts.Hash.Blake3
import SignedFacts.Hash.Sha512
import SignedFacts.Json.Basic
import SignedFacts.Json.Fields
import SignedFacts.Json.Read
import SignedFacts.Json.Scan
import SignedFacts.Json.Skip
import SignedFacts.Number.Binary64
import SignedFacts.Number.Decimal
import SignedFacts.Number.Numeral
import SignedFacts.Number.WordLayout
import SignedFacts.Octets.Base64
import SignedFacts.Octets.Endian
import SignedFacts.Octets.Hex
import SignedFacts.Octets.Utf8
import SignedFacts.Peer.Error
import SignedFacts.Peer.Registry
import SignedFacts.Peer.Response
import SignedFacts.Peer.Round
import SignedFacts.Peer.Transport
import SignedFacts.Proofs.Json.Grammar
import SignedFacts.Proofs.Json.Part
import SignedFacts.Proofs.Json.Soundness
import SignedFacts.Proofs.Json.Token
import SignedFacts.Proofs.Json.Tree
import SignedFacts.Proofs.Number.Grammar
import SignedFacts.Proofs.Octets.Base64
import SignedFacts.Proofs.Octets.Hex
import SignedFacts.Proofs.Octets.HexText
import SignedFacts.Proofs.Octets.Utf8
import SignedFacts.Record.Basic
import SignedFacts.Record.Envelope
import SignedFacts.Record.Id
import SignedFacts.Record.KeyText
import SignedFacts.Record.Parse
import SignedFacts.Sample.Golden
import SignedFacts.Sample.Party
import SignedFacts.Sample.Tree
import SignedFacts.Signature.Curve
import SignedFacts.Signature.Ed25519
import SignedFacts.Signature.Field
import SignedFacts.Store.Basic
import SignedFacts.Store.Digest
import SignedFacts.Table.Basic
import SignedFacts.Table.Sorted
import SignedFacts.Text.Blank
import SignedFacts.Text.Hidden
import SignedFacts.Text.Literal
import SignedFacts.Text.Quoted
import SignedFacts.Value.Basic
import SignedFacts.Value.OfJson
import SignedFacts.Proofs.Json.Completeness
import SignedFacts.Proofs.Number.Acceptance
import SignedFacts.Proofs.Number.Canonical
import SignedFacts.Proofs.Number.Layout
import SignedFacts.Proofs.Number.Spelling
import SignedFacts.Proofs.Number.Value
import SignedFacts.Proofs.Table.Sorted
import SignedFacts.Proofs.Value.Canonical
import SignedFacts.Proofs.Value.OfJson
import SignedFacts.Proofs.Json.Reserved
import SignedFacts.Proofs.Value.Reserved
import SignedFacts.Proofs.Record.Document
import SignedFacts.Proofs.Record.KeyText
import SignedFacts.Proofs.Record.Acceptance
import SignedFacts.Proofs.Record.Canonical
import SignedFacts.Proofs.Record.RoundTrip
import SignedFacts.Proofs.Engine.Normalise
import SignedFacts.Proofs.Json.Rearranged
import SignedFacts.Proofs.Json.Embedded
import SignedFacts.Proofs.Record.Rearranged
import SignedFacts.Proofs.Record.Repeated
import SignedFacts.Proofs.Json.Depth
import SignedFacts.Proofs.Json.SameTree
import SignedFacts.Proofs.Record.Spelling
import SignedFacts.Proofs.Sample.Number
import SignedFacts.Proofs.Sample.Tree
import SignedFacts.Proofs.Sample.Document
import SignedFacts.Proofs.Sample.Signature
import SignedFacts.Proofs.Store.Digest
import SignedFacts.Proofs.Store.Merge
import SignedFacts.Proofs.Store.Union
import SignedFacts.Proofs.Store.Signers
import SignedFacts.Proofs.Store.Time
import SignedFacts.Proofs.Peer.Round
import SignedFacts.Proofs.Peer.Registry
import SignedFacts.Proofs.Engine.Calls
import SignedFacts.Proofs.Engine.Failure
import SignedFacts.Proofs.Engine.Authentic
import SignedFacts.Proofs.Json.Skip
import SignedFacts.Proofs.Json.Local
import SignedFacts.Proofs.Peer.View
import SignedFacts.Proofs.Peer.Split
import SignedFacts.Proofs.Peer.Join
import SignedFacts.Proofs.Record.Portable
import SignedFacts.Proofs.Engine.Completion
import SignedFacts.Proofs.Engine.Admission
import SignedFacts.Proofs.Engine.Exchange
import SignedFacts.Proofs.Engine.Export
import SignedFacts.Proofs.Engine.Signers
import SignedFacts.Proofs.Engine.History
import SignedFacts.Proofs.Engine.Time
import SignedFacts.Proofs.Engine.Tokens
import SignedFacts.Proofs.Network.Basic
import SignedFacts.Proofs.Network.Soundness
import SignedFacts.Proofs.Network.Convergence
import SignedFacts.Proofs.Engine.Outgoing
import SignedFacts.Proofs.Number.Growth
import SignedFacts.Proofs.Json.Gap
import SignedFacts.Proofs.Json.Weight
import SignedFacts.Proofs.Record.Growth
import SignedFacts.Proofs.Number.Machine
import SignedFacts.Proofs.Record.Time
import SignedFacts.Proofs.Json.Fields
import SignedFacts.Proofs.Engine.Settings
import SignedFacts.Proofs.Engine.SettingsText
import SignedFacts.Proofs.Number.WordLayout
