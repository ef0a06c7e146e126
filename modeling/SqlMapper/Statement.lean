import SqlMapper.Mutation.Fragments
import SqlMapper.Query.Fragment.Run

/-!
# SqlMapper.Statement

Statements of any kind, and their compilation to text and parameters.
-/

namespace SqlMapper

inductive Statement
  | query (q : Query)
  | insert (i : Insert)
  | update (u : Update)
  | delete (x : Delete)

namespace Statement

def fragments (d : Dialect) : Statement → List Fragment
  | query q => q.fragments d
  | insert i => i.fragments d
  | update u => u.fragments d
  | delete x => x.fragments d

/-- The text and the parameters of the statement in a dialect. Computed defaults are drawn from
the supply, also by a statement that is refused later on. -/
def compile (st : Statement) (d : Dialect) (s : Supply) : Except Error Rendered × Supply :=
  Fragment.render d (st.fragments d) s

/-- Whether the statement answers with rows. -/
def returnsRows : Statement → Bool
  | query _ => true
  | insert i => !i.returning.isEmpty
  | update u => !u.returning.isEmpty
  | delete x => !x.returning.isEmpty

/-- The model that is selected from or changed. -/
def target? : Statement → Option ModelSource
  | query q => q.model?
  | insert i => some i.into
  | update u => some u.table
  | delete x => some x.table

end Statement

end SqlMapper
