import SqlMapper.Value.Tagged
import SqlMapper.Query.Equality
import SqlMapper.Query.DialectOptions
import SqlMapper.Executor
import SqlMapper.Pool.Described
import SqlMapper.Inspect.Pool
import SqlMapper.Inspect.Query
import SqlMapper.Inspect.Schema
import SqlMapper.Rehearsal.Bench
import SqlMapper.Rehearsal.Board
import SqlMapper.Rehearsal.Codec
import SqlMapper.Proofs.Fragment.Run
import SqlMapper.Proofs.Join.Walk
import SqlMapper.Proofs.Statement.Atom
import SqlMapper.Proofs.Text.Placeholder
import SqlMapper.Proofs.Statement.Layout
import SqlMapper.Proofs.Statement.Clauses
import SqlMapper.Proofs.Statement.Laid
import SqlMapper.Proofs.Statement.Mutation
import SqlMapper.Proofs.Text.Pieces
import SqlMapper.Proofs.Statement.Parameters
import SqlMapper.Proofs.Fragment.Mask
import SqlMapper.Proofs.Statement.Outline
import SqlMapper.Proofs.Statement.Literals
import SqlMapper.Proofs.Fragment.Fresh
import SqlMapper.Proofs.Scope.Mirror
import SqlMapper.Proofs.Scope.Hygiene
import SqlMapper.Proofs.Join.Preorder
import SqlMapper.Proofs.Join.Text
import SqlMapper.Proofs.Transaction.Atomic
import SqlMapper.Proofs.Pool.Abandoned
import SqlMapper.Proofs.Pool.Closed
import SqlMapper.Proofs.Pool.Oldest
import SqlMapper.Proofs.Transaction.Balance
import SqlMapper.Proofs.Transaction.Scopes
import SqlMapper.Proofs.Statement.Dialects
import SqlMapper.Proofs.Schema.Integrity
import SqlMapper.Proofs.Schema.RoundTrip
import SqlMapper.Proofs.Statement.Capabilities
import SqlMapper.Proofs.Statement.Rows
import SqlMapper.Proofs.Statement.Conflicts
import SqlMapper.Proofs.Statement.Batch
import SqlMapper.Proofs.Statement.SetOperators
import SqlMapper.Proofs.Statement.Operators
import SqlMapper.Proofs.Condition.Truth
import SqlMapper.Proofs.Join.Resolved
import SqlMapper.Proofs.Record.Fetched
import SqlMapper.Proofs.Condition.Negation
import SqlMapper.Proofs.Text.Like
import SqlMapper.Proofs.Statement.Assigned
import SqlMapper.Proofs.Column.Uuid
import SqlMapper.Proofs.Column.Stable
import SqlMapper.Proofs.Text.Quoted
import SqlMapper.Proofs.Text.WordBoundary
import SqlMapper.Proofs.Statement.Encoded
import SqlMapper.Proofs.Statement.Projection
import SqlMapper.Proofs.Statement.Excluded
import SqlMapper.Proofs.Statement.WithScope
import SqlMapper.Proofs.Statement.Framed
import SqlMapper.Proofs.Statement.Generated
