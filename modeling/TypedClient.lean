import TypedClient.Main
import TypedClient.Files.Workspace
import TypedClient.Proofs.Cycles
import TypedClient.Proofs.Meaning
import TypedClient.Proofs.TypeText.Operators
import TypedClient.Proofs.TypeText.Token
import TypedClient.Proofs.TypeText.Reading
import TypedClient.Proofs.Failure.Outcome
import TypedClient.Proofs.Failure.Schema
import TypedClient.Proofs.Failure.Extraction
import TypedClient.Proofs.Failure.Generation
import TypedClient.Proofs.TypeText.Tree
import TypedClient.Proofs.Generated
import TypedClient.Proofs.Signatures
import TypedClient.Proofs.Circularity
import TypedClient.Proofs.TopLevelNames
import TypedClient.Proofs.Command.Session
import TypedClient.Proofs.Command.Saving
import TypedClient.Proofs.Command.Refusal
import TypedClient.Proofs.Command.Faults
import TypedClient.Proofs.Command.Ending
import TypedClient.Proofs.Accepted
import TypedClient.Proofs.Lookup
import TypedClient.Proofs.Endpoints.Extracted
import TypedClient.Proofs.Endpoints.Rearranged
import TypedClient.Proofs.NewSchema.Document
import TypedClient.Proofs.NewSchema.Client
import TypedClient.Proofs.Command.Places
import TypedClient.Proofs.Command.Files
import TypedClient.Proofs.Command.Leaving
import TypedClient.Proofs.Toml.Written
import TypedClient.Proofs.Toml.Strings
import TypedClient.Proofs.Toml.Kept
import TypedClient.Proofs.Toml.Entries
import TypedClient.Proofs.Command.Surviving
import TypedClient.Proofs.Script.Access
import TypedClient.Proofs.Script.Quotes
import TypedClient.Proofs.Script.Block
import TypedClient.Proofs.Script.Comment
import TypedClient.Proofs.Script.Address
import TypedClient.Proofs.Chains
import TypedClient.Proofs.Methods.Lines
import TypedClient.Proofs.Methods.Response
import TypedClient.Proofs.Methods.Substitutions
import TypedClient.Proofs.Methods.Body
import TypedClient.Proofs.Methods.Calls
import TypedClient.Proofs.Methods.Mandatory
import TypedClient.Proofs.Methods.ErrorCodes
import TypedClient.Proofs.Failure.Variant
import TypedClient.Proofs.Failure.Checks
import TypedClient.Proofs.Restyled
import TypedClient.Proofs.Endpoints.Accounted
import TypedClient.Proofs.Endpoints.Inlined
import TypedClient.Proofs.Identifiers
import TypedClient.Proofs.Document.Complaints
import TypedClient.Proofs.Document.Normalised
import TypedClient.Proofs.Projects
import TypedClient.Proofs.TypeText.Levels
import TypedClient.Proofs.RepeatedMethods
import TypedClient.Proofs.ClassMembers
import TypedClient.Proofs.Reachable
import TypedClient.Proofs.TypeText.Brackets
import TypedClient.Proofs.Indentation
import TypedClient.Proofs.HeaderComment
