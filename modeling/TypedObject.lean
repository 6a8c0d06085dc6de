import TypedObject.Blake3.Compression
import TypedObject.Blake3.Tree
import TypedObject.Bytes
import TypedObject.Command.Arguments
import TypedObject.Command.Help
import TypedObject.Command.Run
import TypedObject.Declaration.Build
import TypedObject.Declaration.Layout
import TypedObject.Declaration.Registrar
import TypedObject.Declaration.Tag
import TypedObject.Declaration.TypeExpr
import TypedObject.Digest
import TypedObject.Files.Access
import TypedObject.Files.Directory
import TypedObject.Identifier
import TypedObject.Json
import TypedObject.Kind
import TypedObject.Main
import TypedObject.Message.Basic
import TypedObject.Message.Codec
import TypedObject.Offset
import TypedObject.Proofs.Schema.Nodes
import TypedObject.Proofs.Schema.Shape
import TypedObject.Proofs.Wire.Reading
import TypedObject.Registry.Basic
import TypedObject.Registry.Decode
import TypedObject.Registry.Link
import TypedObject.Report.Error
import TypedObject.Report.Message
import TypedObject.Report.Registry
import TypedObject.Report.Size
import TypedObject.Sample
import TypedObject.Schema.Basic
import TypedObject.Schema.Decode
import TypedObject.Schema.Encode
import TypedObject.Schema.Text
import TypedObject.SchemaError
import TypedObject.Settings.Basic
import TypedObject.Settings.Level
import TypedObject.Store.Basic
import TypedObject.Store.Flags
import TypedObject.Store.Pack
import TypedObject.Text.Blank
import TypedObject.Text.Column
import TypedObject.Text.Hex
import TypedObject.Text.Hidden
import TypedObject.Text.Quoted
import TypedObject.Toml.Document
import TypedObject.Toml.Moment
import TypedObject.Toml.Number
import TypedObject.Toml.Scanner
import TypedObject.Toml.Table
import TypedObject.Toml.Text
import TypedObject.Toml.Value
import TypedObject.Toml.Written
import TypedObject.Value.Basic
import TypedObject.Value.Datum
import TypedObject.Value.Outline
import TypedObject.Value.Traversal
import TypedObject.View.Basic
import TypedObject.View.Path
import TypedObject.View.Size
import TypedObject.Wire.Prefixed
import TypedObject.Wire.Reader
import TypedObject.Wire.References
import TypedObject.Proofs.Schema.Exactness
import TypedObject.Proofs.Schema.NestingLimit
import TypedObject.Proofs.Schema.Formed
import TypedObject.Proofs.Text.ByteOrder
import TypedObject.Proofs.Registry.Entries
import TypedObject.Proofs.Registry.Linking
import TypedObject.Proofs.Registry.Exactness
import TypedObject.Proofs.Registry.CanonicalForm
import TypedObject.Proofs.Declaration.Description
import TypedObject.Proofs.Declaration.Soundness
import TypedObject.Proofs.Registry.Declared
import TypedObject.Proofs.Registry.WireSurvival
import TypedObject.Proofs.View.Grammar
import TypedObject.Proofs.View.Reachable
import TypedObject.Proofs.View.FixedSize
import TypedObject.Proofs.View.Measuring
import TypedObject.Proofs.View.SizeExactness
import TypedObject.Proofs.View.Resolution
import TypedObject.Proofs.Declaration.Members
import TypedObject.Proofs.Declaration.Naming
import TypedObject.Proofs.Registry.RegistrationOrder
import TypedObject.Proofs.Registry.Content
import TypedObject.Proofs.View.Retyping
import TypedObject.Proofs.Value.Behaviour
import TypedObject.Proofs.Wire.References
import TypedObject.Proofs.Value.Conforming
import TypedObject.Proofs.Value.Leaves
import TypedObject.Proofs.Value.ReadBack
import TypedObject.Proofs.Message.Framing
import TypedObject.Proofs.View.Shortcut
import TypedObject.Proofs.View.Suffix
import TypedObject.Proofs.Value.Parts
import TypedObject.Proofs.Value.Visits
import TypedObject.Proofs.Value.Partition
import TypedObject.Proofs.Value.Trimming
import TypedObject.Proofs.Store.History
import TypedObject.Proofs.Declaration.Arrangement
import TypedObject.Proofs.Registry.AcceptedCalls
import TypedObject.Proofs.View.ReferencePlaces
import TypedObject.Proofs.Declaration.TagNames
import TypedObject.Proofs.View.ReferenceTargets
import TypedObject.Proofs.View.Locality
import TypedObject.Proofs.Registry.Identifiers
import TypedObject.Proofs.Registry.Registrations
import TypedObject.Proofs.Store.FirstWrites
import TypedObject.Proofs.Store.Verification
import TypedObject.Proofs.Arithmetic.Basic
import TypedObject.Proofs.Arithmetic.FixedSizes
import TypedObject.Proofs.Arithmetic.Sizes
import TypedObject.Proofs.Arithmetic.Access
import TypedObject.Proofs.Arithmetic.Safety
import TypedObject.Proofs.View.ConsecutiveValues
import TypedObject.Proofs.Value.LeafBytes
import TypedObject.Proofs.Value.LeafAccess
import TypedObject.Proofs.Value.FollowingBytes
import TypedObject.Proofs.Declaration.Buildability
import TypedObject.Proofs.Wire.Delimited
import TypedObject.Proofs.Registry.CutEncodings
import TypedObject.Proofs.Registry.Lookups
import TypedObject.Proofs.Message.Classification
import TypedObject.Proofs.Registry.ExcludedFields
import TypedObject.Proofs.Report.FieldSizes
import TypedObject.Proofs.Identifier.Digits
import TypedObject.Proofs.Wire.Cursor
import TypedObject.Proofs.Declaration.TagGrammar
import TypedObject.Registry.Arena
import TypedObject.Proofs.Registry.Slots
import TypedObject.Proofs.Registry.Worklist
import TypedObject.View.Slots
import TypedObject.Proofs.Registry.Finalized
import TypedObject.Proofs.View.Slots
