import Groth16.Artifact.Decoder
import Groth16.Artifact.Frame
import Groth16.Artifact.Payload
import Groth16.Circuit.Assignment
import Groth16.Circuit.Builder
import Groth16.Circuit.Compile
import Groth16.Circuit.Constraint
import Groth16.Circuit.ConstraintSystem
import Groth16.Circuit.Known
import Groth16.Circuit.LinearCombination
import Groth16.Circuit.Operation
import Groth16.Circuit.Recipe
import Groth16.Circuit.Schema
import Groth16.Circuit.Wire
import Groth16.Circuit.Witness
import Groth16.Console.Commands
import Groth16.Console.FileTree
import Groth16.Console.Host
import Groth16.Curve.Bn254.Encoding
import Groth16.Curve.Bn254.Fields
import Groth16.Curve.Bn254.Groups
import Groth16.Curve.Bn254.Pairing
import Groth16.Curve.Groups
import Groth16.Curve.Multiples
import Groth16.Curve.Weierstrass
import Groth16.Data.Bytes
import Groth16.Data.Dictionary
import Groth16.Data.Power
import Groth16.Domain.Basic
import Groth16.Domain.Transform
import Groth16.Field.Basic
import Groth16.Field.Known
import Groth16.Field.Literal
import Groth16.Field.Modulus
import Groth16.Field.Sample
import Groth16.Hash.Blake3
import Groth16.Hash.Digest
import Groth16.Json.Number
import Groth16.Json.Reader
import Groth16.Json.Record
import Groth16.Json.Value
import Groth16.Main
import Groth16.Outcome
import Groth16.Proofs.Artifact.Artifacts
import Groth16.Proofs.Artifact.Format
import Groth16.Proofs.Artifact.Logarithms
import Groth16.Proofs.Artifact.Parts
import Groth16.Proofs.Artifact.Payloads
import Groth16.Proofs.Circuit.Binding
import Groth16.Proofs.Circuit.Compilation
import Groth16.Proofs.Circuit.Division
import Groth16.Proofs.Circuit.Emission
import Groth16.Proofs.Circuit.Evaluation
import Groth16.Proofs.Circuit.Execution
import Groth16.Proofs.Circuit.Filling
import Groth16.Proofs.Circuit.Gadgets
import Groth16.Proofs.Circuit.Laws
import Groth16.Proofs.Circuit.Layout
import Groth16.Proofs.Circuit.Meaning
import Groth16.Proofs.Circuit.Programs
import Groth16.Proofs.Circuit.Recording
import Groth16.Proofs.Circuit.Relabeling
import Groth16.Proofs.Circuit.Replay
import Groth16.Proofs.Circuit.Scope
import Groth16.Proofs.Circuit.Sessions
import Groth16.Proofs.Circuit.Soundness
import Groth16.Proofs.Circuit.Tracing
import Groth16.Proofs.Circuit.Uniform
import Groth16.Proofs.Circuit.WellFormed
import Groth16.Proofs.Circuit.Witnesses
import Groth16.Proofs.Curve.Bn254.Encoding
import Groth16.Proofs.Curve.Bn254.Fields
import Groth16.Proofs.Curve.Groups
import Groth16.Proofs.Curve.Multiples
import Groth16.Proofs.Data.Bytes
import Groth16.Proofs.Data.Delimited
import Groth16.Proofs.Data.Dictionary
import Groth16.Proofs.Domain.BitReversal
import Groth16.Proofs.Domain.Butterflies
import Groth16.Proofs.Domain.Interpolation
import Groth16.Proofs.Domain.Inversion
import Groth16.Proofs.Domain.Transform
import Groth16.Proofs.Field.Bits
import Groth16.Proofs.Field.Known
import Groth16.Proofs.Field.Laws
import Groth16.Proofs.Field.Literal
import Groth16.Proofs.Field.Vectors
import Groth16.Proofs.Json.RoundTrip
import Groth16.Proofs.Outcome
import Groth16.Proofs.Protocol.Checks
import Groth16.Proofs.Protocol.CircuitKeys
import Groth16.Proofs.Protocol.Completeness
import Groth16.Proofs.Protocol.Draws
import Groth16.Proofs.Protocol.Prover
import Groth16.Proofs.Protocol.Safety
import Groth16.Proofs.Protocol.Setup
import Groth16.Proofs.Protocol.Tampering
import Groth16.Proofs.Protocol.Verifier
import Groth16.Proofs.Protocol.ZeroKnowledge
import Groth16.Proofs.Qap.Columns
import Groth16.Proofs.Qap.Exactness
import Groth16.Proofs.Qap.Quotient
import Groth16.Proofs.Service.Replies
import Groth16.Proofs.Service.Schedule
import Groth16.Proofs.Statement.Publics
import Groth16.Proofs.Text.Base64
import Groth16.Protocol.CircuitKeys
import Groth16.Protocol.KeySize
import Groth16.Protocol.Keys
import Groth16.Protocol.Prover
import Groth16.Protocol.Setup
import Groth16.Protocol.Verifier
import Groth16.Qap
import Groth16.Random.ChaCha
import Groth16.Random.Source
import Groth16.Service.Address
import Groth16.Service.Exchange
import Groth16.Service.Handler
import Groth16.Service.KeyStore
import Groth16.Service.MediaType
import Groth16.Service.Message
import Groth16.Service.Settings
import Groth16.Statement.Files
import Groth16.Text.Base64
import Groth16.Text.Blank
import Groth16.Text.Hex
import Groth16.Text.Lines
import Groth16.Text.Quoted
import Groth16.Text.Unprinted
import Groth16.Proofs.Domain.Lagrange
import Groth16.Proofs.Qap.Independence
import Groth16.Proofs.Domain.Construction
import Groth16.Domain.InPlace
import Groth16.Proofs.Domain.Validation
import Groth16.Proofs.Circuit.Threshold
import Groth16.Proofs.Statement.Exchange
import Groth16.Proofs.Field.Reading
import Groth16.Proofs.Field.Grammar
import Groth16.Proofs.Circuit.Handles
import Groth16.Proofs.Circuit.Breaches
import Groth16.Proofs.Circuit.Isolation
import Groth16.Proofs.Curve.Orders
import Groth16.Proofs.Circuit.Canonical
import Groth16.Proofs.Protocol.Decision
import Groth16.Proofs.Protocol.Secrets
import Groth16.Proofs.Protocol.Degeneracy
