import ApiGraph.CommandLine.Directory
import ApiGraph.Main
import ApiGraph.Proofs.GeneratedApi.Accounts
import ApiGraph.Proofs.GeneratedApi.ErrorIdentifiers
import ApiGraph.Proofs.GeneratedApi.Independence
import ApiGraph.Proofs.GeneratedApi.Legality
import ApiGraph.Proofs.GeneratedApi.References
import ApiGraph.Proofs.GeneratedApi.Summary
import ApiGraph.Proofs.Identifier.OnePass
import ApiGraph.Proofs.Lifting.MemberNames
import ApiGraph.Proofs.Lifting.Repeat
import ApiGraph.Proofs.Operation.Annotations
import ApiGraph.Proofs.Registry.Sharing
import ApiGraph.Proofs.CommandLine.Normalize
import ApiGraph.Proofs.Flags.Nested
import ApiGraph.Proofs.Flags.Parts
import ApiGraph.Proofs.Flags.Marks
import ApiGraph.Proofs.Flags.Values
import ApiGraph.Proofs.Flags.References
import ApiGraph.Proofs.Text.Literal
import ApiGraph.Proofs.Schema.Reordered
import ApiGraph.Proofs.GeneratedApi.Encoding
import ApiGraph.Proofs.EnumLiteral
import ApiGraph.Proofs.GeneratedApi.Regular
import ApiGraph.Proofs.GeneratedApi.Capacity
import ApiGraph.Proofs.Renaming
import ApiGraph.Proofs.Model.Table
