import SqlMapper.Query.Syntax

/-!
# SqlMapper.Query.Equality

Equality of syntax. Literals are compared as values, and a model by its name and its alias.
-/

namespace SqlMapper

def sameQualifier : Option Qualifier → Option Qualifier → Bool
  | none, none => true
  | some p, some q => p.same q
  | _, _ => false

mutual

def Expr.same : Expr → Expr → Bool
  | .column p m, .column q n => sameQualifier p q && m == n
  | .literal v, .literal w => v.same w
  | .raw s, .raw t => s == t
  | .call f as distinct, .call g bs distinct' =>
    f == g && Expr.sameList as bs && distinct == distinct'
  | .windowed f v, .windowed g w => f.same g && v.same w
  | .binary a op b, .binary a' op' b' => a.same a' && op == op' && b.same b'
  | .list as, .list bs => Expr.sameList as bs
  | .subquery p, .subquery q => p.same q
  | .nonEmpty p, .nonEmpty q => p.same q
  | .condition c, .condition c' => c.same c'
  | .cast e s, .cast e' t => e.same e' && s == t
  | .named e m, .named e' n => e.same e' && m == n
  | .excluded m, .excluded n => m == n
  | .star p, .star q => sameQualifier p q
  | _, _ => false

def Expr.sameList : List Expr → List Expr → Bool
  | [], [] => true
  | a :: as, b :: bs => a.same b && Expr.sameList as bs
  | _, _ => false

def WindowRef.same : WindowRef → WindowRef → Bool
  | .inline v, .inline w => v.same w
  | .named m, .named n => m == n
  | _, _ => false

def Window.same : Window → Window → Bool
  | ⟨m, as, ts, f⟩, ⟨n, bs, us, g⟩ =>
    m == n && Expr.sameList as bs && OrderTerm.sameList ts us && f == g

def Window.sameList : List Window → List Window → Bool
  | [], [] => true
  | v :: vs, w :: ws => v.same w && Window.sameList vs ws
  | _, _ => false

def OrderTerm.same : OrderTerm → OrderTerm → Bool
  | ⟨a, direction, nulls⟩, ⟨b, direction', nulls'⟩ =>
    a.same b && direction == direction' && nulls == nulls'

def OrderTerm.sameList : List OrderTerm → List OrderTerm → Bool
  | [], [] => true
  | t :: ts, u :: us => t.same u && OrderTerm.sameList ts us
  | _, _ => false

def Condition.same : Condition → Condition → Bool
  | .compare a op b negated escaped, .compare a' op' b' negated' escaped' =>
    a.same a' && op == op' && b.same b' && negated == negated' && escaped == escaped'
  | .group connective cs negated, .group connective' cs' negated' =>
    connective == connective' && Condition.sameList cs cs' && negated == negated'
  | .operand a, .operand b => a.same b
  | _, _ => false

def Condition.sameList : List Condition → List Condition → Bool
  | [], [] => true
  | c :: cs, c' :: cs' => c.same c' && Condition.sameList cs cs'
  | _, _ => false

def Condition.sameOption : Option Condition → Option Condition → Bool
  | none, none => true
  | some c, some c' => c.same c'
  | _, _ => false

def Query.same : Query → Query → Bool
  | .simple s, .simple t => s.same t
  | .compound c, .compound c' => c.same c'
  | _, _ => false

def Select.same : Select → Select → Bool
  | ⟨ctes, source, context, joins, columns, distinct, filter, groupBy, having, windows, orderBy,
      limit, offset, forUpdate⟩, t =>
    Cte.sameList ctes t.ctes && Source.sameOption source t.source && context == t.context &&
      Join.sameList joins t.joins && Expr.sameList columns t.columns &&
      distinct.same t.distinct && Condition.sameOption filter t.filter &&
      Expr.sameList groupBy t.groupBy && Condition.sameOption having t.having &&
      Window.sameList windows t.windows && OrderTerm.sameList orderBy t.orderBy &&
      limit == t.limit && offset == t.offset && forUpdate == t.forUpdate

def Compound.same : Compound → Compound → Bool
  | ⟨ctes, left, op, right, orderBy, limit, offset⟩, c =>
    Cte.sameList ctes c.ctes && left.same c.left && op == c.op && right.same c.right &&
      OrderTerm.sameList orderBy c.orderBy && limit == c.limit && offset == c.offset

def Cte.same : Cte → Cte → Bool
  | ⟨m, ms, recursive, p⟩, ⟨n, ns, recursive', q⟩ =>
    m == n && ms == ns && recursive == recursive' && p.same q

def Cte.sameList : List Cte → List Cte → Bool
  | [], [] => true
  | c :: cs, c' :: cs' => c.same c' && Cte.sameList cs cs'
  | _, _ => false

def Source.same : Source → Source → Bool
  | .model m, .model n => m.same n
  | .table m, .table n => m == n
  | .derived p m, .derived q n => p.same q && m == n
  | _, _ => false

def Source.sameOption : Option Source → Option Source → Bool
  | none, none => true
  | some s, some t => s.same t
  | _, _ => false

def Join.same : Join → Join → Bool
  | ⟨context, target, kind, on, exposedAs⟩, j =>
    context == j.context && target.same j.target && kind == j.kind && on.same j.on &&
      exposedAs == j.exposedAs

def Join.sameList : List Join → List Join → Bool
  | [], [] => true
  | j :: js, k :: ks => j.same k && Join.sameList js ks
  | _, _ => false

def JoinOn.same : JoinOn → JoinOn → Bool
  | .relation r, .relation t => r == t
  | .condition c, .condition c' => c.same c'
  | .always, .always => true
  | _, _ => false

def Distinct.same : Distinct → Distinct → Bool
  | .off, .off => true
  | .rows, .rows => true
  | .on as, .on bs => Expr.sameList as bs
  | _, _ => false

end

end SqlMapper
