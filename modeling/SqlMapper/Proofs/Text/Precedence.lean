import SqlMapper.Proofs.Text.Reserved

/-!
# SqlMapper.Proofs.Text.Precedence

Operands and conditions as trees of operators, read from their lexemes with the precedence of SQL.

`OR` is the weakest operator, then come `AND`, `NOT`, the comparisons (with `IS`, `IN`, `LIKE` and
`BETWEEN`), and the signs of arithmetic; `||` is the strongest. What stands between parentheses is
read by itself. `Reader.step` reads one lexeme: an operator waits on a stack for its right operand,
and an operand goes to the stronger of the operators on both sides of it. As in the grammar of the
standard, a `NOT` is refused as the right operand of anything stronger.

Names of sources, numbers of placeholders, queries and windows are left out of the trees (`OpTree`).
-/

namespace SqlMapper

/-- What stands at a node. -/
inductive Label
  /-- A column, by the last part of its name. -/
  | column (n : List Char)
  | param
  | word (w : List Char)
  | star
  /-- A value that an insert proposes. -/
  | proposed
  | query
  | nonEmpty
  /-- A function, by the last part of its name, and its arguments. -/
  | call (function : List Char) (distinct : Bool)
  | row
  | cast
  | window
  | sign (w : List Char)
  /-- An operator that is a word; `IS NOT`, `NOT IN` and `NOT LIKE` are negated ones. -/
  | reserved (k : Reserved) (negated : Bool)
  | null (negated : Bool)
  | escaped

inductive OpTree
  | node (label : Label) (parts : List OpTree)

namespace OpTree

/-- A row of one operand is that operand. -/
def row : List OpTree → OpTree
  | [t] => t
  | ts => node .row ts

def negated (b : Bool) (t : OpTree) : OpTree :=
  if b then node (.reserved .not false) [t] else t

def escaped (b : Bool) (t : OpTree) : OpTree := if b then node .escaped [t] else t

/-- Placeholders are told from other words by their marks. -/
def ofWord (w : List Char) : OpTree :=
  if w.head?.any Placeholder.isMark then node .param [] else node (.word w) []

end OpTree

/-- What has been made of a level of parentheses. -/
inductive Content
  | items (distinct : Bool) (ts : List OpTree)
  /-- An operand and a type. -/
  | typed (t : OpTree)
  | query

def Content.operand? : Content → Option OpTree
  | items false ts => some (.row ts)
  | query => some (.node .query [])
  | _ => none

/-! ## The reader -/

/-- An operator that waits for its right operand. -/
inductive Pending
  | operator (level : Nat) (label : Label) (left : OpTree)
  | not
  /-- `BETWEEN` before its `AND`. -/
  | between (t : OpTree)
  | interval (t low : OpTree)

/-- What a name stands for. -/
inductive NameOf
  | column
  | proposed
  | window (t : OpTree)

def NameOf.tree : NameOf → List Char → OpTree
  | column, n => .node (.column n) []
  | proposed, _ => .node .proposed []
  | window t, _ => .node .window [t]

namespace Reader

inductive Mode
  | operand
  | value (t : OpTree)
  | word (w : List Char)
  /-- `EXISTS`, `CAST`, `VALUES` or `EXCLUDED`. -/
  | head (k : Reserved)
  | name (k : NameOf) (n : List Char)
  | dotted (k : NameOf)
  /-- An operand and `NOT`. -/
  | negated (t : OpTree)
  | escape (t : OpTree)
  | window (t : OpTree)
  | typed (t : OpTree)

def Mode.ofWord (w : List Char) : Mode := if w = ['*'] then .value (.node .star []) else .word w

/-- The operand that has been read last, if it is complete. -/
def Mode.value? : Mode → Option OpTree
  | value t => some t
  | word w => some (.ofWord w)
  | name k n => some (k.tree n)
  | _ => none

/-- The function that a word or the last part of a name may turn out to be. -/
def Mode.function? : Mode → Option (List Char)
  | word w => some w
  | name .column n => some n
  | _ => none

end Reader

structure Reader where
  /-- The operands before the last comma. -/
  items : List OpTree := []
  distinct : Bool := false
  /-- The operators that wait, the innermost first. -/
  stack : List Pending := []
  mode : Reader.Mode := .operand

namespace Reader

/-- A lexeme with what has been made of the group that it is. -/
abbrev Item := Lexeme × Option (Option Content)

/-- How strong a sign is. `NOT`, `AND` and `OR` are of the levels 3, 2 and 1. -/
def signLevel (w : List Char) : Nat :=
  if ["=", "!=", "<>", "<", "<=", ">", ">="].contains (String.ofList w) then 4
  else if ["+", "-"].contains (String.ofList w) then 6
  else if ["*", "/", "%"].contains (String.ofList w) then 7
  else if w = ['|', '|'] then 8
  else 5

/-- Hands an operand to the operators that are at least as strong as the next one. -/
def reduce (level : Nat) : List Pending → OpTree → List Pending × OpTree
  | .operator n label left :: fs, t =>
    if level ≤ n then reduce level fs (.node label [left, t]) else (.operator n label left :: fs, t)
  | .not :: fs, t => if level ≤ 3 then reduce level fs (.negated true t) else (.not :: fs, t)
  | .interval x low :: fs, t =>
    if level ≤ 4 then reduce level fs (.node (.reserved .between false) [x, .row [low, t]])
    else (.interval x low :: fs, t)
  | fs, t => (fs, t)

/-- Hands an operand to all operators. -/
def close (fs : List Pending) (t : OpTree) : Option OpTree :=
  match reduce 0 fs t with
  | ([], t) => some t
  | _ => none

def push (r : Reader) (level : Nat) (label : Label) (t : OpTree) : Reader :=
  let (fs, t) := reduce level r.stack t
  { r with stack := .operator level label t :: fs, mode := .operand }

/-- A word after an operand. -/
def onWord (r : Reader) (t : OpTree) (w : List Char) : Option Reader :=
  match Reserved.of? w with
  | none => some (r.push (signLevel w) (.sign w) t)
  | some .and =>
    match reduce 5 r.stack t with
    | (.between x :: fs, low) => some { r with stack := .interval x low :: fs, mode := .operand }
    | _ => some (r.push 2 (.reserved .and false) t)
  | some .or => some (r.push 1 (.reserved .or false) t)
  | some .is => some (r.push 4 (.reserved .is false) t)
  | some .member => some (r.push 4 (.reserved .member false) t)
  | some .like => some (r.push 4 (.reserved .like false) t)
  | some .ilike => some (r.push 4 (.reserved .ilike false) t)
  | some .not =>
    let (fs, t) := reduce 4 r.stack t
    some { r with stack := fs, mode := .negated t }
  | some .between =>
    let (fs, t) := reduce 4 r.stack t
    some { r with stack := .between t :: fs, mode := .operand }
  | some .escape =>
    let (fs, t) := reduce 4 r.stack t
    some { r with stack := fs, mode := .escape t }
  | some .window => some { r with mode := .window t }
  | some .type =>
    if r.items.isEmpty && !r.distinct then
      (close r.stack t).map fun t => { r with stack := [], mode := .typed t }
    else none
  | some _ => none

/-- `NOT` in the place of an operand. After `IS` it is a part of the operator. -/
def onNot (r : Reader) : Option Reader :=
  match r.stack with
  | .operator n (.reserved .is false) t :: fs =>
    some { r with stack := .operator n (.reserved .is true) t :: fs }
  | .operator n _ _ :: _ => if n ≤ 3 then some { r with stack := .not :: r.stack } else none
  | [] | .not :: _ => some { r with stack := .not :: r.stack }
  | _ => none

/-- `NULL` after `IS` or `IS NOT`. -/
def onNull (r : Reader) : Option Reader :=
  match r.stack with
  | .operator _ (.reserved .is negated) t :: fs =>
    some { r with stack := fs, mode := .value (.node (.null negated) [t]) }
  | _ => none

/-- A word in the place of an operand. -/
def onOperandWord (r : Reader) (w : List Char) : Option Reader :=
  match Reserved.of? w with
  | none => some { r with mode := .ofWord w }
  | some .not => r.onNot
  | some .null => r.onNull
  | some .distinct =>
    if r.items.isEmpty && r.stack.isEmpty && !r.distinct then some { r with distinct := true }
    else none
  | some k =>
    if [Reserved.nonEmpty, .cast, .values, .excluded].contains k then
      some { r with mode := .head k }
    else none

def onOperand (r : Reader) : Item → Option Reader
  | (.word w, _) => r.onOperandWord w
  | (.name n, _) => some { r with mode := .name .column n }
  | (_, some c) => (c.bind Content.operand?).map fun t => { r with mode := .value t }
  | _ => none

/-- What follows a word that is no operand by itself. -/
def onHead (r : Reader) : Reserved → Item → Option Reader
  | .nonEmpty, (_, some (some .query)) => some { r with mode := .value (.node .nonEmpty []) }
  | .cast, (_, some (some (.typed t))) => some { r with mode := .value (.node .cast [t]) }
  | .values, (_, some (some (.items false [_]))) =>
    some { r with mode := .value (.node .proposed []) }
  | .excluded, (.dot, _) => some { r with mode := .dotted .proposed }
  | _, _ => none

/-- What follows an operand. -/
def onValue (r : Reader) : Item → Option Reader
  | (.word w, _) => r.mode.value?.bind fun t => r.onWord t w
  | (.comma, _) =>
    r.mode.value?.bind fun t => (close r.stack t).map fun t =>
      { r with items := r.items ++ [t], stack := [], mode := .operand }
  | (.dot, _) =>
    match r.mode with
    | .name k _ => some { r with mode := .dotted k }
    | .word _ => some { r with mode := .dotted .column }
    | _ => none
  | (_, some (some (.items distinct ts))) =>
    r.mode.function?.map fun f => { r with mode := .value (.node (.call f distinct) ts) }
  | _ => none

def step (r : Reader) (x : Item) : Option Reader :=
  match r.mode with
  | .operand => r.onOperand x
  | .value _ | .word _ | .name _ _ => r.onValue x
  | .head k => r.onHead k x
  | .dotted k =>
    match k, x.1 with
    | k, .name n => some { r with mode := .name k n }
    | .column, .word w => some { r with mode := .ofWord w }
    | _, _ => none
  | .negated t =>
    match x.1.reserved? with
    | some .member => some { r with stack := .operator 4 (.reserved .member true) t :: r.stack, mode := .operand }
    | some .like => some { r with stack := .operator 4 (.reserved .like true) t :: r.stack, mode := .operand }
    | _ => none
  | .escape t =>
    match x.1 with
    | .string _ => some { r with mode := .value (.node .escaped [t]) }
    | _ => none
  | .window t =>
    match x.1 with
    | .group _ => some { r with mode := .value (.node .window [t]) }
    | .name n => some { r with mode := .name (.window t) n }
    | _ => none
  | .typed _ => some r

def run (r : Reader) (xs : List Item) : Option Reader := xs.foldlM step r

def finish (r : Reader) : Option Content :=
  match r.mode with
  | .operand =>
    if r.items.isEmpty && r.stack.isEmpty then some (.items r.distinct []) else none
  | .typed t => some (.typed t)
  | m => m.value?.bind fun t => (close r.stack t).map fun t => .items r.distinct (r.items ++ [t])

end Reader

namespace OpTree

def level (xs : List Reader.Item) : Option Content :=
  if xs.any fun x => x.1.isQueryWord then some .query else (Reader.run {} xs).bind Reader.finish

/-- The tree that a text of one operand is read as. -/
def read (ls : List Lexeme) : Option OpTree :=
  match level (Lexeme.foldAll level ls) with
  | some (.items false [t]) => some t
  | _ => none

end OpTree

end SqlMapper
