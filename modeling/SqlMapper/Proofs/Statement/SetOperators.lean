import SqlMapper.Proofs.Fragment.Gated
import SqlMapper.Proofs.Statement.Balanced
import SqlMapper.Proofs.Text.SetTree
import SqlMapper.Statement

/-!
# SqlMapper.Proofs.Statement.SetOperators

The text of a tree of set operators has the grouping of the tree.

* `Query.Grouped`: the tree of set operators that a query is. Its leaves and tails are lexemes of
  the parts of the query in some place, and a leaf that selects all rows from a query is that query.
* `Query.lexed_forms`: this tree is what the lexemes of the query are read as.
* `Query.compile_grouped`: a compilation gives this tree, or an error.
-/

namespace SqlMapper

open Fragment Lexer

/-! ## The tree of a query -/

/-- In some place the fragments are put out as these lexemes. -/
def Fragment.Shows (d : Dialect) (fs : List Fragment) (ls : List Lexeme) : Prop :=
  ∃ r ps r' n, Puts fs r ps r' ∧ lexemes? d.quoteChar (Piece.chars d n ps) = some ls

/-- The terms of an ordering, if there is one. -/
def OrderTerm.terms? (d : Dialect) : List OrderTerm → Option (List Fragment)
  | [] => none
  | ts => some (commas (OrderTerm.listFragments d ts))

/-- The tail that an ordering, a limit and an offset make. -/
structure TailOf (d : Dialect) (orderBy : List OrderTerm) (limit offset : Option Nat)
    (tail : Tail) : Prop where
  orderBy : Option.Rel (Shows d) (OrderTerm.terms? d orderBy) tail.orderBy
  limit : Option.Rel (fun s ls => lexemes? d.quoteChar s.toList = some ls)
    (d.limitText? limit offset) tail.limit
  offset : Option.Rel (fun s ls => lexemes? d.quoteChar s.toList = some ls)
    (offset.map toString) tail.offset

/-- The select without what counts for all of it. -/
def Select.unordered (s : Select) : Select := { s with orderBy := [], limit := none, offset := none }

mutual

/-- The tree of a query without its tail, and the tail. -/
def Query.Forms (d : Dialect) : Query → SetTree → Tail → Prop
  | .simple s, t, tail =>
    (∃ ls, Shows d (s.unordered.fragments d) ls ∧ SetTree.operand (SetTree.items ls) = some t) ∧
      TailOf d s.orderBy s.limit s.offset tail
  | .compound c, t, tail => c.Forms d t tail

def Compound.Forms (d : Dialect) : Compound → SetTree → Tail → Prop
  | ⟨_, left, op, right, orderBy, limit, offset⟩, t, tail =>
    (∃ l ltail r rtail, left.Forms d l ltail ∧ right.Forms d r rtail ∧
      t = .node (l.attach ltail) op (r.attach rtail)) ∧ TailOf d orderBy limit offset tail

end

def Query.Grouped (d : Dialect) (q : Query) (t : SetTree) : Prop :=
  ∃ t' tail, q.Forms d t' tail ∧ t = t'.attach tail

mutual

/-- No query of the tree has a `WITH` clause or a lock. -/
def Query.Unadorned : Query → Prop
  | .simple s => s.ctes = [] ∧ s.forUpdate = false
  | .compound c => c.Unadorned

def Compound.Unadorned : Compound → Prop
  | ⟨ctes, left, _, right, _, _, _⟩ => ctes = [] ∧ left.Unadorned ∧ right.Unadorned

end

/-- A set operator and its right operand. -/
theorem SetTree.parts?_operator (op : SetOperator) {ls ks : List Lexeme} {l r : SetTree}
    (hl : parts? (items ls) = some (l, {})) (hks : NoClause ks)
    (hall : ks.head?.bind Lexeme.reserved? ≠ some .all) (hr : operand (items ks) = some r) :
    parts? (items (ls ++ op.lexemes ++ ks)) = some (.node l op r, {}) := by
  have hunion : (items ks).head?.bind (fun x => x.1.reserved?) ≠ some .all := by
    cases ks with
    | nil => simp
    | cons k ks => exact hall
  rw [List.append_assoc]
  cases op with
  | union =>
    refine (parts?_clause ls (by decide) hks).trans ?_
    simp [hl, next, setOperator?, hunion, hr]
  | unionAll =>
    have hks : NoClause (Reserved.all.lexeme :: ks) := hks.cons (by decide)
    refine (parts?_clause ls (by decide) hks).trans ?_
    simp [hl, next, setOperator?, hr]
  | intersect =>
    refine (parts?_clause ls (by decide) hks).trans ?_
    simp [hl, next, setOperator?, hr]
  | except =>
    refine (parts?_clause ls (by decide) hks).trans ?_
    simp [hl, next, setOperator?, hr]

/-! ## Tails -/

namespace Fragment

variable {d : Dialect} {P : List Lexeme → Prop} {fs : List Fragment}

theorem Lexed.shows (h : Lexed d Mode.Between P (Mode.Done d.quoteChar) fs) :
    Lexed d Mode.Between (fun ls => P ls ∧ Shows d fs ls) (Mode.Done d.quoteChar) fs := by
  intro r ps r' hp n
  obtain ⟨ls, hls, hscans⟩ := h r ps r' hp n
  exact ⟨ls, ⟨hls, r, ps, r', n, hp, hscans.lexemes?⟩, hscans⟩

theorem Written.lexemes? {q : Char} {s : String} {ls : List Lexeme} (h : Written q s ls) :
    Lexer.lexemes? q s.toList = some ls := h.2.lexemes?

end Fragment

/-- A tail that can be read. -/
structure Tail.Readable (tail : Tail) : Prop where
  orderBy : ∀ ls ∈ tail.orderBy, NoClause ls
  limit : ∀ ls ∈ tail.limit, NoClause ls
  offset : ∀ ls ∈ tail.offset, NoClause ls

theorem TailOf.eq_empty {d : Dialect} {tail : Tail} (h : TailOf d [] none none tail) : tail = {} := by
  obtain ⟨orderBy, limit, offset⟩ := tail
  obtain ⟨horder, hlimit, hoffset⟩ := h
  cases horder
  cases hlimit
  cases hoffset
  rfl

namespace Fragment

variable {d : Dialect} {fs ordering : List Fragment} (hd : d.Legible)

include hd

/-- An ordering and a limit are read as the tail that they make. -/
theorem Lexed.tail {ts : List OrderTerm} (limit offset : Option Nat)
    (h : Lexed d (Mode.Done d.quoteChar)
      (fun ls => ∃ o, Option.Rel (fun fs ks => NoClause ks ∧ Shows d fs ks) (OrderTerm.terms? d ts) o ∧
        ls = Reserved.order.clause (o.map (.word ['B', 'Y'] :: ·)))
      (Mode.Done d.quoteChar) ordering) :
    Lexed d (Mode.Done d.quoteChar)
      (fun ls => ∃ tail : Tail, TailOf d ts limit offset tail ∧ tail.Readable ∧ ls = tail.lexemes)
      (Mode.Done d.quoteChar) (ordering ++ Fragment.ofLimit d limit offset) := by
  have hmem {α : Type} {R : α → List Lexeme → Prop} {x : Option α} {o : Option (List Lexeme)}
      (h : Option.Rel R x o) (hR : ∀ x ls, R x ls → NoClause ls) : ∀ ls ∈ o, NoClause ls := by
    cases h with
    | some h => rintro _ ⟨⟩; exact hR _ _ h
    | none => rintro _ ⟨⟩
  have hspelled {x : Option String} {o : Option (List Lexeme)}
      (h : Option.Rel (Written d.quoteChar) x o) :
      Option.Rel (fun s ls => lexemes? d.quoteChar s.toList = some ls) x o := by
    cases h with
    | some h => exact .some h.lexemes?
    | none => exact .none
  refine h.append (Lexed.ofLimit hd limit offset) ?_
  rintro _ _ ⟨orderBy, horder, rfl⟩ ⟨l, o, hl, ho, rfl⟩
  refine ⟨⟨orderBy, l, o⟩, ⟨?_, hspelled hl, hspelled ho⟩,
    ⟨hmem horder fun _ _ h => h.1, hmem hl fun _ _ h => h.1, hmem ho fun _ _ h => h.1⟩, rfl⟩
  generalize OrderTerm.terms? d ts = terms at horder
  cases horder with
  | some h => exact .some h.2
  | none => exact .none

/-! ## Selects -/

/-- What is put out for a select and its tail. -/
theorem Lexed.ofSelect {s : Select} (h : s.Balanced d) (hctes : s.ctes = [])
    (hlock : s.forUpdate = false) :
    Lexed d Mode.Between
      (fun ls => ∃ ks tail, NoClause ks ∧
        Shows d (s.unordered.fragments d) (Reserved.select.lexeme :: ks) ∧
        TailOf d s.orderBy s.limit s.offset tail ∧ tail.Readable ∧
        ls = Reserved.select.lexeme :: ks ++ tail.lexemes)
      (Mode.Done d.quoteChar) (s.fragments d) := by
  have hordering : Lexed d (Mode.Done d.quoteChar)
      (fun ls => ∃ o, Option.Rel (fun fs ks => NoClause ks ∧ Shows d fs ks)
        (OrderTerm.terms? d s.orderBy) o ∧
        ls = Reserved.order.clause (o.map (.word ['B', 'Y'] :: ·)))
      (Mode.Done d.quoteChar) (listClause " ORDER BY " (OrderTerm.listFragments d s.orderBy)) := by
    have hterms := h.orderBy
    generalize s.orderBy = ts at hterms
    cases ts with
    | nil => exact Lexed.nil ⟨none, .none, rfl⟩
    | cons t ts =>
      refine (Lexed.orderBy hd (Operand.commas hd hterms).shows).mono ?_
      rintro _ ⟨ks, hks, rfl⟩
      exact ⟨some ks, .some hks, rfl⟩
  have hlocked : s.lockFragments d = [] := by simp [Select.lockFragments, hlock]
  have htail := Lexed.tail hd s.limit s.offset hordering
  intro r ps r' hp n
  rw [Select.fragments_body, hctes, hlocked, List.append_nil] at hp
  obtain ⟨m, hbody, -⟩ := puts_nested.1 hp
  obtain ⟨m₁, qs, qs', hqs, hqs', rfl⟩ := puts_append.1 (puts_enlist_append.1 hbody)
  obtain ⟨_, ⟨ks, hks, rfl⟩, hscans⟩ := h.body _ _ _ hqs n
  obtain ⟨_, ⟨tail, hof, hreadable, rfl⟩, hscans'⟩ := htail _ _ _ hqs' (n + Piece.count qs)
  have hunordered : Puts (s.unordered.fragments d) r qs m₁.leave := by
    have hbody : s.unordered.bodyFragments d = s.bodyFragments d := rfl
    have hlocked : s.unordered.lockFragments d = [] := hlocked
    have hctes : s.unordered.ctes = [] := hctes
    rw [Select.fragments_body, hbody, hlocked, hctes]
    refine puts_nested.2 ⟨m₁, puts_enlist_append.2 ?_, rfl⟩
    have htail : listClause " ORDER BY " (OrderTerm.listFragments d s.unordered.orderBy) ++
        (Fragment.ofLimit d s.unordered.limit s.unordered.offset ++ []) = [] := rfl
    rwa [htail, List.append_nil]
  refine ⟨_, ⟨ks, tail, hks, ⟨r, qs, _, n, hunordered, hscans.lexemes?⟩, hof, hreadable, rfl⟩, ?_⟩
  rw [Piece.chars_append]
  exact hscans.append hscans'

end Fragment

/-! ## Operands of set operators -/

namespace Query

variable {d : Dialect}

/-- Lexemes that are read as the query. -/
def ReadAs (d : Dialect) (q : Query) (ls : List Lexeme) : Prop :=
  ∃ t tail, q.Forms d t tail ∧ SetTree.parts? (SetTree.items ls) = some (t, tail)

/-- Lexemes that are read as the query on either side of a set operator. -/
structure OperandAs (d : Dialect) (q : Query) (ls : List Lexeme) : Prop where
  noClause : NoClause ls
  notAll : ls.head?.bind Lexeme.reserved? ≠ some .all
  tree : ∃ t, q.Grouped d t ∧ SetTree.operand (SetTree.items ls) = some t

theorem ReadAs.read {q : Query} {ls : List Lexeme} (h : q.ReadAs d ls) :
    ∃ t, q.Grouped d t ∧ SetTree.read ls = some t := by
  obtain ⟨t, tail, hforms, hparts⟩ := h
  exact ⟨t.attach tail, ⟨t, tail, hforms, rfl⟩, by rw [SetTree.read, SetTree.level, hparts]; rfl⟩

theorem isOrdered_eq_false {q : Query} {t : SetTree} {tail : Tail} (hq : q.isOrdered = false)
    (h : q.Forms d t tail) : tail = {} := by
  cases q with
  | simple s =>
    simp only [isOrdered, Bool.or_eq_false_iff, Bool.not_eq_false', List.isEmpty_iff,
      Option.isSome_eq_false_iff, Option.isNone_iff_eq_none] at hq
    have := h.2
    rw [hq.1.1, hq.1.2, hq.2] at this
    exact this.eq_empty
  | compound c =>
    obtain ⟨ctes, left, op, right, orderBy, limit, offset⟩ := c
    simp only [isOrdered, Bool.or_eq_false_iff, Bool.not_eq_false', List.isEmpty_iff,
      Option.isSome_eq_false_iff, Option.isNone_iff_eq_none] at hq
    have := h.2
    rw [hq.1.1, hq.1.2, hq.2] at this
    exact this.eq_empty

/-- An operand is read as its tree with nothing behind it. -/
theorem OperandAs.parts {q : Query} {ls : List Lexeme} (h : q.OperandAs d ls) :
    ∃ t, q.Grouped d t ∧ SetTree.parts? (SetTree.items ls) = some (t, {}) := by
  obtain ⟨t, hgrouped, ht⟩ := h.tree
  exact ⟨t, hgrouped, by rw [SetTree.parts?_items h.noClause, ht]; rfl⟩

theorem ReadAs.group {q : Query} {ls : List Lexeme} (h : q.ReadAs d ls) :
    q.OperandAs d [.group ls] where
  noClause := noClause_group ls
  notAll := by simp [Lexeme.reserved?]
  tree := h.read

theorem ReadAs.derived {q : Query} {ls : List Lexeme} (n : String) (h : q.ReadAs d ls) :
    q.OperandAs d ([Reserved.select.lexeme, .word ['*'], Reserved.source.lexeme, .group ls,
      Reserved.type.lexeme] ++ ofName n.toList) where
  noClause := by
    have hgroup : NoClause [.group ls, Reserved.type.lexeme] :=
      (by decide : NoClause [Reserved.type.lexeme]).cons rfl
    exact ((by decide : NoClause [Reserved.select.lexeme, .word ['*'],
      Reserved.source.lexeme]).append hgroup).append (noClause_ofName _)
  notAll := by simp
  tree := by
    obtain ⟨t, hgrouped, ht⟩ := h.read
    refine ⟨t, hgrouped, SetTree.operand_derived ht fun l hl => ?_⟩
    obtain rfl | ⟨p, rfl⟩ := mem_ofName hl <;> rfl

end Query

namespace Fragment

variable {d : Dialect} {fs : List Fragment} {q : Query} (hd : d.Legible)

include hd

theorem Lexed.parenthesizedQuery (h : Lexed d Mode.Between (q.ReadAs d) (Mode.Done d.quoteChar) fs) :
    Lexed d Mode.Between (q.OperandAs d) (Mode.Done d.quoteChar) (Fragment.parenthesized fs) := by
  refine ((Lexed.parenthesized hd h).mono ?_).done
  rintro _ ⟨ks, hks, rfl⟩
  exact hks.group

theorem Lexed.ofRight (h : Lexed d Mode.Between (q.ReadAs d) (Mode.Done d.quoteChar) fs)
    (hsimple : q.isCompound = false → q.isOrdered = false →
      Lexed d Mode.Between (q.OperandAs d) (Mode.Done d.quoteChar) fs) :
    Lexed d Mode.Between (q.OperandAs d) (Mode.Done d.quoteChar)
      (Fragment.ofOperand d true q.isCompound q.isOrdered fs) := by
  unfold Fragment.ofOperand
  split
  · exact Lexed.parenthesizedQuery hd h
  · cases hcompound : q.isCompound with
    | true =>
      refine (Lexed.enclosed hd opens_derived closes_derived h).append (Lexed.identifier hd "_compound") ?_
      rintro _ _ ⟨ks, hks, rfl⟩ rfl
      exact hks.derived "_compound"
    | false =>
      rw [Bool.and_false, if_neg Bool.false_ne_true, requiring]
      cases hordered : q.isOrdered with
      | true => exact Lexed.refuse _
      | false => exact hsimple hcompound hordered

theorem Lexed.ofLeft (h : Lexed d Mode.Between (q.ReadAs d) (Mode.Done d.quoteChar) fs) :
    Lexed d Mode.Between
      (fun ls => ∃ t, q.Grouped d t ∧ SetTree.parts? (SetTree.items ls) = some (t, {}))
      (Mode.Done d.quoteChar) (Fragment.ofOperand d false q.isCompound q.isOrdered fs) := by
  unfold Fragment.ofOperand
  split
  · exact (Lexed.parenthesizedQuery hd h).mono fun _ => Query.OperandAs.parts
  · rw [Bool.false_and, if_neg Bool.false_ne_true, requiring]
    cases hordered : q.isOrdered with
    | true => exact Lexed.refuse _
    | false =>
      refine h.mono ?_
      rintro ls ⟨t, tail, hforms, hparts⟩
      obtain rfl := Query.isOrdered_eq_false hordered hforms
      exact ⟨t, ⟨t, {}, hforms, rfl⟩, hparts⟩

/-! ## Queries -/

/-- A select without a tail can stand on either side of a set operator. -/
theorem Lexed.readSelect {s : Select} (h : s.Balanced d) (hctes : s.ctes = [])
    (hlock : s.forUpdate = false) :
    Lexed d Mode.Between
      (fun ls => (Query.simple s).ReadAs d ls ∧
        ((Query.simple s).isOrdered = false → (Query.simple s).OperandAs d ls))
      (Mode.Done d.quoteChar) (s.fragments d) := by
  refine (Lexed.ofSelect hd h hctes hlock).mono ?_
  rintro _ ⟨ks, tail, hks, hshows, htail, hreadable, rfl⟩
  have hnoClause : NoClause (Reserved.select.lexeme :: ks) := hks.cons (by decide)
  obtain ⟨t, ht⟩ := SetTree.operand_select ks
  have hforms : (Query.simple s).Forms d t tail :=
    ⟨⟨_, hshows, ht⟩, htail⟩
  constructor
  · refine ⟨t, tail, hforms, SetTree.parts?_tail ?_ hreadable.orderBy hreadable.limit hreadable.offset⟩
    rw [SetTree.parts?_items hnoClause, ht]
    rfl
  · intro hordered
    obtain rfl := Query.isOrdered_eq_false hordered hforms
    have hempty : (Reserved.select.lexeme :: ks) ++ Tail.lexemes {} = Reserved.select.lexeme :: ks :=
      List.append_nil _
    rw [hempty]
    exact ⟨hnoClause, by simp, t, ⟨t, {}, hforms, rfl⟩, ht⟩

theorem Lexed.ofCompound {c : Compound} (hctes : c.ctes = [])
    (hleft : Lexed d Mode.Between (c.left.ReadAs d) (Mode.Done d.quoteChar) (c.left.fragments d))
    (hright : Lexed d Mode.Between (c.right.ReadAs d) (Mode.Done d.quoteChar)
      (c.right.fragments d))
    (hsimple : c.right.isCompound = false → c.right.isOrdered = false →
      Lexed d Mode.Between (c.right.OperandAs d) (Mode.Done d.quoteChar) (c.right.fragments d))
    (horder : ∀ fs ∈ OrderTerm.listFragments d c.orderBy, Operand d fs) :
    Lexed d Mode.Between ((Query.compound c).ReadAs d) (Mode.Done d.quoteChar)
      (c.fragments d) := by
  have hordering : Lexed d (Mode.Done d.quoteChar)
      (fun ls => ∃ o, Option.Rel (fun fs ks => NoClause ks ∧ Shows d fs ks)
        (OrderTerm.terms? d c.orderBy) o ∧
        ls = Reserved.order.clause (o.map (.word ['B', 'Y'] :: ·)))
      (Mode.Done d.quoteChar) (Compound.orderingFragments d c.orderBy) := by
    generalize c.orderBy = ts at horder
    cases ts with
    | nil => exact Lexed.nil ⟨none, .none, rfl⟩
    | cons t ts =>
      refine (Lexed.orderBy hd (.nested (Operand.commas hd horder).shows)).mono ?_
      rintro _ ⟨ks, hks, rfl⟩
      exact ⟨some ks, .some hks, rfl⟩
  have hjoined := Lexed.joining hd c.op.phrase (Lexed.ofLeft hd hleft)
    (Lexed.ofRight hd hright hsimple)
  have h := hjoined.append (R := (Query.compound c).ReadAs d)
    (Lexed.tail hd c.limit c.offset hordering) ?_
  · rw [Compound.fragments_eq, hctes]
    simpa only [Fragment.ofCtes, List.nil_append, List.append_assoc] using h
  · rintro _ _ ⟨ks, js, ⟨l, hl, hks⟩, hjs, rfl⟩ ⟨tail, htail, hreadable, rfl⟩
    obtain ⟨r, hr, hjs'⟩ := hjs.tree
    obtain ⟨l', ltail, hl', rfl⟩ := hl
    obtain ⟨r', rtail, hr', rfl⟩ := hr
    have hforms : c.Forms d (.node (l'.attach ltail) c.op (r'.attach rtail)) tail := by
      cases c
      exact ⟨⟨l', ltail, r', rtail, hl', hr', rfl⟩, htail⟩
    exact ⟨_, tail, hforms, SetTree.parts?_tail
      (SetTree.parts?_operator c.op hks hjs.noClause hjs.notAll hjs')
      hreadable.orderBy hreadable.limit hreadable.offset⟩

end Fragment

/-! ## Whole queries -/

variable {d : Dialect}

mutual

theorem Query.lexed_forms (hd : d.Legible) : (q : Query) → q.Unadorned →
    (∀ s ∈ q.sqlTexts, SelfContained d.quoteChar s) →
    Lexed d Mode.Between (q.ReadAs d) (Mode.Done d.quoteChar) (q.fragments d)
  | .simple s => fun hs h => by
    rw [Query.sqlTexts] at h
    rw [Query.fragments]
    exact (Lexed.readSelect hd (Select.balanced hd s h) hs.1 hs.2).mono fun _ h => h.1
  | .compound c => fun hc h => by
    rw [Query.sqlTexts] at h
    rw [Query.fragments]
    exact Compound.lexed_forms hd c hc h

theorem Compound.lexed_forms (hd : d.Legible) : (c : Compound) → c.Unadorned →
    (∀ s ∈ c.sqlTexts, SelfContained d.quoteChar s) →
    Lexed d Mode.Between ((Query.compound c).ReadAs d) (Mode.Done d.quoteChar) (c.fragments d)
  | ⟨ctes, left, op, right, orderBy, limit, offset⟩ => fun hc h => by
    simp only [Compound.sqlTexts, List.forall_mem_append] at h
    obtain ⟨-, hleft, hright, horder⟩ := h
    refine Lexed.ofCompound hd hc.1 (Query.lexed_forms hd left hc.2.1 hleft)
      (Query.lexed_forms hd right hc.2.2 hright) ?_ (OrderTerm.listBalanced hd orderBy horder)
    cases right with
    | simple s =>
      intro _ hordered
      have hs := hc.2.2
      rw [Query.sqlTexts] at hright
      dsimp only
      rw [Query.fragments]
      exact (Lexed.readSelect hd (Select.balanced hd s hright) hs.1 hs.2).mono fun _ h => h.2 hordered
    | compound c => exact fun hcompound => Bool.noConfusion hcompound

end

/-! ## Errors -/

/-- In some place the fragments end in the error. -/
def Fragment.Fails (fs : List Fragment) (e : Error) : Prop := ∃ r, (runAll fs r).1 = .error e

mutual

/-- An error that a select of the tree or a term of one of its orderings ends in by itself. -/
def Query.Raises (d : Dialect) (e : Error) : Query → Prop
  | .simple s => Fails (s.fragments d) e
  | .compound c => c.Raises d e

def Compound.Raises (d : Dialect) (e : Error) : Compound → Prop
  | ⟨_, left, _, right, orderBy, _, _⟩ =>
    left.Raises d e ∨ right.Raises d e ∨ ∃ t ∈ orderBy, Fails (t.fragments d) e

end

namespace Fragment.Fails

variable {fs gs : List Fragment} {fss : List (List Fragment)} {e : Error}

theorem append (h : Fails (fs ++ gs) e) : Fails fs e ∨ Fails gs e := by
  obtain ⟨r, hr⟩ := h
  rcases hfs : runAll fs r with ⟨e' | ⟨⟩, m⟩
  · rw [runAll_append_of_error hfs] at hr
    exact .inl ⟨r, by rw [hfs]; exact hr⟩
  · rw [runAll_append_of_ok hfs] at hr
    exact .inr ⟨m, hr⟩

theorem not_nil : ¬ Fails [] e := by
  rintro ⟨r, hr⟩
  cases hr

theorem not_text (s : String) : ¬ Fails [text s] e := by
  rintro ⟨r, hr⟩
  rw [runAll_singleton, run] at hr
  cases hr

theorem not_identifier (s : String) : ¬ Fails [identifier s] e := by
  rintro ⟨r, hr⟩
  rw [runAll_singleton, run] at hr
  cases hr

theorem cons_text {s : String} (h : Fails (text s :: fs) e) : Fails fs e :=
  have h : Fails ([text s] ++ fs) e := h
  h.append.resolve_left (not_text s)

theorem enclosed {o c : String} (h : Fails (enclosed o fs c) e) : Fails fs e := by
  rw [Fragment.enclosed] at h
  exact h.append.elim cons_text fun h => absurd h (not_text c)

theorem nested {s : Scope} (h : Fails [nested s fs] e) : Fails fs e := by
  obtain ⟨r, hr⟩ := h
  rw [runAll_singleton, run] at hr
  exact ⟨_, hr⟩

theorem commas (h : Fails (commas fss) e) : ∃ fs ∈ fss, Fails fs e := by
  induction fss with
  | nil => exact absurd h not_nil
  | cons fs fss ih =>
    cases fss with
    | nil =>
      rw [Fragment.commas, separated, List.intercalate_singleton] at h
      exact ⟨fs, List.mem_singleton.2 rfl, h⟩
    | cons gs fss =>
      rw [Fragment.commas, separated, List.intercalate_cons_cons] at h
      rcases h.append with h | h
      · refine ⟨fs, List.mem_cons_self .., h.append.resolve_right (not_text _)⟩
      · obtain ⟨gs', hmem, h⟩ := ih h
        exact ⟨gs', List.mem_cons_of_mem _ hmem, h⟩

theorem not_ofLimit (d : Dialect) (limit offset : Option Nat) : ¬ Fails (ofLimit d limit offset) e := by
  intro h
  unfold ofLimit at h
  rcases h.append with h | h
  · split at h
    · exact not_text _ h
    · exact not_text _ h.cons_text
    · exact not_nil h
  · cases offset with
    | none => exact not_nil h
    | some n => exact not_text _ h

theorem ofOperand {d : Dialect} {isRight isCompound ordered : Bool}
    (h : Fails (ofOperand d isRight isCompound ordered fs) e) :
    (∃ c, e = .compilation c) ∨ Fails fs e := by
  unfold Fragment.ofOperand at h
  split at h
  · exact .inr (enclosed h)
  · split at h
    · exact .inr (enclosed (h.append.resolve_right (not_identifier _)))
    · unfold requiring at h
      split at h
      · exact .inr h
      · obtain ⟨r, hr⟩ := h
        rw [runAll_singleton, run] at hr
        cases hr
        exact .inl ⟨_, rfl⟩

end Fragment.Fails

theorem OrderTerm.mem_listFragments {d : Dialect} {ts : List OrderTerm} {fs : List Fragment}
    (h : fs ∈ OrderTerm.listFragments d ts) : ∃ t ∈ ts, fs = t.fragments d := by
  induction ts with
  | nil => cases h
  | cons t ts ih =>
    rw [OrderTerm.listFragments] at h
    rcases List.mem_cons.1 h with rfl | h
    · exact ⟨t, List.mem_cons_self .., rfl⟩
    · obtain ⟨t', ht', h⟩ := ih h
      exact ⟨t', List.mem_cons_of_mem _ ht', h⟩

mutual

/-- Set operators add no errors but those of compilation. -/
theorem Query.raises_of_fails {e : Error} : (q : Query) → q.Unadorned → Fails (q.fragments d) e →
    (∃ c, e = .compilation c) ∨ q.Raises d e
  | .simple s => fun _ h => by
    rw [Query.fragments] at h
    exact .inr h
  | .compound c => fun hc h => by
    rw [Query.fragments] at h
    exact Compound.raises_of_fails c hc h

theorem Compound.raises_of_fails {e : Error} : (c : Compound) → c.Unadorned →
    Fails (c.fragments d) e → (∃ c, e = .compilation c) ∨ c.Raises d e
  | ⟨ctes, left, op, right, orderBy, limit, offset⟩ => fun hc h => by
    have hctes : ctes = [] := hc.1
    rw [Compound.fragments_eq, hctes] at h
    replace h := h.append.resolve_right (Fails.not_ofLimit d limit offset)
    rcases h.append with h | horder
    · rcases h.append with h | hright
      · have hleft := h.append.resolve_right (Fails.not_text _)
        rcases Fails.ofOperand (hleft.append.resolve_left Fails.not_nil) with h | h
        · exact .inl h
        · exact (Query.raises_of_fails left hc.2.1 h).imp_right .inl
      · rcases Fails.ofOperand hright with h | h
        · exact .inl h
        · exact (Query.raises_of_fails right hc.2.2 h).imp_right fun h => .inr (.inl h)
    · refine .inr (.inr (.inr ?_))
      cases orderBy with
      | nil => exact absurd horder Fails.not_nil
      | cons t ts =>
        obtain ⟨fs, hfs, h⟩ := Fails.commas (Fails.nested (Fails.cons_text horder))
        obtain ⟨t', ht', rfl⟩ := OrderTerm.mem_listFragments hfs
        exact ⟨t', ht', h⟩

end

/-- A compiled tree of set operators is read as that tree. Its selects and the terms of its
orderings aside, it is only refused for what the dialect lacks. -/
theorem Query.compile_grouped (hd : d.Legible) (q : Query) (s : Supply) (hq : q.Unadorned)
    (htexts : ∀ t ∈ q.sqlTexts, SelfContained d.quoteChar t) :
    match ((Statement.query q).compile d s).1 with
    | .ok r => ∃ t, q.Grouped d t ∧ (lexemes? d.quoteChar r.sql.toList).bind SetTree.read = some t
    | .error e => (∃ c, e = .compilation c) ∨ q.Raises d e := by
  unfold Statement.compile render
  rcases hrun : runAll ((Statement.query q).fragments d) (.start s) with ⟨e | ⟨⟩, r⟩
  · exact Query.raises_of_fails q hq ⟨.start s, by rw [← Statement.fragments, hrun]⟩
  · have hputs : Puts (q.fragments d) (.start s) r.output.toList r := ⟨hrun, rfl⟩
    obtain ⟨ls, hread, hscans⟩ := Query.lexed_forms hd q hq htexts _ _ _ hputs 0
    obtain ⟨t, hgrouped, ht⟩ := hread.read
    refine ⟨t, hgrouped, ?_⟩
    have hlexemes := hscans.lexemes?
    rw [Piece.chars] at hlexemes
    rw [Rendered.ofPieces]
    dsimp only
    rw [hlexemes, Option.bind_some, ht]

namespace Sample

def bodies (table : String) : Query := .simple ((Select.ofTable table).select [.bare "body"])

/-- All notes, and at most three of the drafts that are not spam. -/
def published : Query :=
  let drafts := (Compound.of (bodies "drafts") .except (bodies "spam")).ordered
    [(Expr.bare "body").ascending]
  .compound ((Compound.of (bodies "notes") .unionAll (.compound (drafts.limited 3))).skipping 1)

def publishedPieces : List Piece :=
  [.text "SELECT ", .name "body", .text " FROM ", .name "notes", .text " UNION ALL ",
    .text "SELECT * FROM (", .text "SELECT ", .name "body", .text " FROM ", .name "drafts",
    .text " EXCEPT ", .text "SELECT ", .name "body", .text " FROM ", .name "spam",
    .text " ORDER BY ", .name "body", .text " ASC", .text " LIMIT 3", .text ") AS ",
    .name "_compound", .text " LIMIT ", .text "-1", .text " OFFSET 1"]

theorem published_grouped : ∃ t, published.Grouped .sqlite t ∧
    (lexemes? '"' (Rendered.ofPieces .sqlite publishedPieces).sql.toList).bind SetTree.read =
      some t := by
  have hcompile : (Statement.query published).compile .sqlite ⟨0⟩ =
      (.ok (.ofPieces .sqlite publishedPieces), ⟨0⟩) := by
    with_unfolding_all rfl
  have hunadorned : published.Unadorned := ⟨rfl, ⟨rfl, rfl⟩, rfl, ⟨rfl, rfl⟩, rfl, rfl⟩
  have htexts : published.sqlTexts = [] := by with_unfolding_all rfl
  have h := Query.compile_grouped Dialect.legible_sqlite published ⟨0⟩ hunadorned fun s hs => by
    rw [htexts] at hs
    cases hs
  rw [hcompile] at h
  exact h

/-- A constant, written by the caller. -/
def constant (sql : String) : Query := .simple (.values [.raw sql])

/-- The first select without the second one. -/
def less (sql sql' : String) : Compound := .of (constant sql) .except (constant sql')

def crooked : Dialect := { Dialect.sqlite with limitForOffset := some "0 UNION SELECT 2" }

/-- No UUID is empty. -/
def keyed : ModelSource where
  model := {
    name := "Key", table := "keys", fields := [⟨0, "id", "Key", { name := "id", type := .uuid }⟩],
    primaryKey := .absent, foreignKeys := [], indexes := [], reverse := [] }
  givenName := none

def misfit : Query :=
  .simple ((Select.ofModel keyed).filtered
    (Expr.compare .eq (Expr.column (some (.model keyed)) "id") (.literal (.text ""))))

/-- Text that is read as another tree, or as none. -/
def Misread (d : Dialect) (q : Query) : Prop :=
  ∃ r, ((Statement.query q).compile d ⟨0⟩).1 = .ok r ∧
    ∀ t, q.Grouped d t → (lexemes? d.quoteChar r.sql.toList).bind SetTree.read ≠ some t

/-- SQL of the caller or of a dialect can hold a set operator, and an operand can be refused for a
reason of its own. -/
theorem grouping_lost :
    Misread .sqlite (.compound (less "3" "1 UNION SELECT 2")) ∧
      Misread crooked (.compound ((less "3" "1").skipping 1)) ∧
        ((Statement.query (.compound (.of misfit .union (constant "1")))).compile .sqlite ⟨0⟩).1 =
          .error (.conversion (.invalidUuid "")) := by
  have hless : SetTree.parts? (SetTree.items ([Reserved.select.lexeme, .word ['3']] ++
      SetOperator.except.lexemes ++ [Reserved.select.lexeme, .word ['1']])) =
      some (.node (.select [Reserved.select.lexeme, .word ['3']]) .except
        (.select [Reserved.select.lexeme, .word ['1']]), {}) :=
    SetTree.parts?_operator .except (SetTree.parts?_items (by decide)) (by decide) (by simp) rfl
  refine ⟨⟨.ofPieces .sqlite [.text "SELECT ", .text "3", .text " EXCEPT ", .text "SELECT ",
    .text "1 UNION SELECT 2"], by with_unfolding_all rfl, ?_⟩, ⟨.ofPieces crooked [.text "SELECT ",
    .text "3", .text " EXCEPT ", .text "SELECT ", .text "1", .text " LIMIT ",
    .text "0 UNION SELECT 2", .text " OFFSET 1"], by with_unfolding_all rfl, ?_⟩,
    by with_unfolding_all rfl⟩
  · rintro _ ⟨_, tail, ⟨⟨l, ltail, r, rtail, -, -, rfl⟩, htail⟩, rfl⟩ hread
    have hspells : Spells "SELECT 3 EXCEPT SELECT 1 UNION SELECT 2"
        ([Reserved.select.lexeme, .word ['3']] ++ SetOperator.except.lexemes ++
          [Reserved.select.lexeme, .word ['1']] ++ SetOperator.union.lexemes ++
          [Reserved.select.lexeme, .word ['2']]) .word := ⟨by decide, fun _ _ => by cbv⟩
    have hunion := SetTree.parts?_operator .union hless
      (by decide : NoClause [Reserved.select.lexeme, .word ['2']]) (by simp) rfl
    rw [show (Rendered.ofPieces _ _).sql = "SELECT 3 EXCEPT SELECT 1 UNION SELECT 2" by decide,
      hspells.lexemes? (by decide), Option.bind_some, SetTree.read, SetTree.level, hunion] at hread
    obtain rfl := htail.eq_empty
    injection Option.some.inj hread with _ hop
    cases hop
  · rintro t - hread
    have hspells : Spells "SELECT 3 EXCEPT SELECT 1 LIMIT 0 UNION SELECT 2 OFFSET 1"
        ([Reserved.select.lexeme, .word ['3']] ++ SetOperator.except.lexemes ++
          [Reserved.select.lexeme, .word ['1']] ++ [Reserved.limit.lexeme, .word ['0']] ++
          [Reserved.union.lexeme, Reserved.select.lexeme, .word ['2']] ++
          [Reserved.offset.lexeme, .word ['1']]) .word := ⟨by decide, fun _ _ => by cbv⟩
    rw [show (Rendered.ofPieces _ _).sql = "SELECT 3 EXCEPT SELECT 1 LIMIT 0 UNION SELECT 2 OFFSET 1"
      by decide, hspells.lexemes? (by decide), Option.bind_some, SetTree.read, SetTree.level,
      SetTree.parts?_clause _ (by decide) (by decide), SetTree.parts?_clause _ (by decide) (by decide),
      SetTree.parts?_clause _ (by decide) (by decide), hless] at hread
    cases hread

end Sample

end SqlMapper
