import SqlAccess.Postgres.Catalog
import SqlAccess.Postgres.Script
import SqlAccess.Registry.Trial
import SqlAccess.Result.Tampered
import SqlAccess.Statement
import SqlAccess.Proofs.Template.Grammar
import SqlAccess.Proofs.Template.Placeholder
import SqlAccess.Proofs.Action
import SqlAccess.Proofs.Literal
import SqlAccess.Proofs.Literal.Reader
import SqlAccess.Proofs.Literal.Scan
import SqlAccess.Proofs.Query.Compile
import SqlAccess.Proofs.Query.Surroundings
import SqlAccess.Proofs.Statement.Substitution
import SqlAccess.Proofs.Statement.Clauses
import SqlAccess.Proofs.Statement.Conditions
import SqlAccess.Proofs.Statement.LateBinding
import SqlAccess.Proofs.Identifier.Path
import SqlAccess.Proofs.Identifier.Reference
import SqlAccess.Proofs.Condition.Rendering
import SqlAccess.Proofs.Statement.Filtered
import SqlAccess.Proofs.Statement.References
import SqlAccess.Proofs.Statement.Qualifier
import SqlAccess.Proofs.Query.Kind
import SqlAccess.Proofs.Query.Refusal
import SqlAccess.Proofs.Statement.Rows
import SqlAccess.Proofs.Template.Server
import SqlAccess.Proofs.Template.Agreement
import SqlAccess.Proofs.Query.Binding
import SqlAccess.Proofs.Postgres.Rows
import SqlAccess.Proofs.Registry.Chronicle
import SqlAccess.Proofs.Postgres.Wire
import SqlAccess.Proofs.Postgres.Link
import SqlAccess.Proofs.Statement.Independence
import SqlAccess.Proofs.Postgres.InsertId
import SqlAccess.Proofs.Recipe
import SqlAccess.Proofs.Postgres.Exposed
import SqlAccess.Proofs.Statement.Places
import SqlAccess.Proofs.Condition.Fault
import SqlAccess.Proofs.Result.Iteration
import SqlAccess.Proofs.Result.Operation
import SqlAccess.Proofs.Result.Reading
import SqlAccess.Proofs.Query.Splice
import SqlAccess.Proofs.Statement.Misuse
import SqlAccess.Proofs.Statement.Joins
import SqlAccess.Proofs.Statement.Given
import SqlAccess.Proofs.Literal.Split
import SqlAccess.Proofs.Statement.Widths
import SqlAccess.Proofs.Recorder.Connecting
import SqlAccess.Proofs.Recorder.Executed
import SqlAccess.Proofs.Postgres.Failures
import SqlAccess.Proofs.Registry.Failure
import SqlAccess.Proofs.Postgres.Catalog
import SqlAccess.Proofs.Postgres.Like
import SqlAccess.Proofs.Postgres.Lookup
import SqlAccess.Proofs.Identifier.Delimited
import SqlAccess.Proofs.Result.Accessors
import SqlAccess.Text.Octets
import SqlAccess.Template.Octets
import SqlAccess.Proofs.Text.Octets
import SqlAccess.Proofs.Template.Octets
import SqlAccess.Proofs.Query.Octets
