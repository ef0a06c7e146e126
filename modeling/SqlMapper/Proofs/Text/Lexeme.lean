import Mathlib.Data.List.Basic
import SqlMapper.Proofs.Text.Placeholder

/-!
# SqlMapper.Proofs.Text.Lexeme

SQL text as lexemes.

* `Lexeme`: words, quoted names and strings, and what stands between parentheses as one lexeme.
* `Lexer.step`: reads one character. A quote character that is doubled inside a quoted name stands
  for itself.
* `Lexer.lexemes?`: the lexemes of a text that closes its quotes and parentheses.
* `Scans`: a stretch of text that adds its lexemes to those before it, whatever these are.
-/

namespace SqlMapper

inductive Lexeme
  /-- A keyword, a sign, a numeral or a placeholder. -/
  | word (w : List Char)
  | name (n : List Char)
  | string (s : List Char)
  | comma
  | dot
  | group (inner : List Lexeme)

/-- Characters that end a word. -/
def isDelimiter (c : Char) : Bool := c.isWhitespace || ['(', ')', ',', '.'].contains c

/-- Characters of SQL that no dialect quotes names with. -/
def isOrdinary (c : Char) : Bool :=
  isDelimiter c || (32 ≤ c.toNat && c.toNat ≤ 126 && !(['"', '[', ']', '\x60'].contains c))

namespace Lexer

inductive Mode
  | between
  | word
  | quoted (p : Char)
  /-- After a closing quote, which may turn out to be the first half of a doubled one. -/
  | closed (p : Char)
  deriving DecidableEq

end Lexer

/-- What has been read: the lexemes of the innermost open group and of those around it, the last
lexeme of each first. -/
structure Lexer where
  lexemes : List Lexeme
  enclosing : List (List Lexeme)
  mode : Lexer.Mode

namespace Lexer

/-- A further character of the last lexeme. -/
def extend (c : Char) : List Lexeme → List Lexeme
  | .word w :: ls => .word (w ++ [c]) :: ls
  | .name n :: ls => .name (n ++ [c]) :: ls
  | .string s :: ls => .string (s ++ [c]) :: ls
  | ls => ls

/-- A character that does not belong to the lexeme before it. -/
def begin (q : Char) (l : Lexer) (c : Char) : Lexer :=
  if c = q then { l with lexemes := .name [] :: l.lexemes, mode := .quoted q }
  else if c = '\'' then { l with lexemes := .string [] :: l.lexemes, mode := .quoted '\'' }
  else if c = '(' then ⟨[], l.lexemes :: l.enclosing, .between⟩
  else if c = ')' then
    match l.enclosing with
    | outer :: enclosing => ⟨.group l.lexemes.reverse :: outer, enclosing, .between⟩
    | [] => ⟨.word [')'] :: l.lexemes, [], .between⟩
  else if c = ',' then { l with lexemes := .comma :: l.lexemes, mode := .between }
  else if c = '.' then { l with lexemes := .dot :: l.lexemes, mode := .between }
  else if c.isWhitespace then { l with mode := .between }
  else { l with lexemes := .word [c] :: l.lexemes, mode := .word }

def step (q : Char) (l : Lexer) (c : Char) : Lexer :=
  match l.mode with
  | .between => l.begin q c
  | .word =>
    if isDelimiter c || c = q || c = '\'' then l.begin q c
    else { l with lexemes := extend c l.lexemes }
  | .quoted p =>
    if c = p then { l with mode := .closed p } else { l with lexemes := extend c l.lexemes }
  | .closed p =>
    if c = p then { l with lexemes := extend c l.lexemes, mode := .quoted p } else l.begin q c

def read (q : Char) (l : Lexer) (cs : List Char) : Lexer := cs.foldl (step q) l

/-- The lexemes of a text; none if it ends inside of quotes or parentheses. -/
def lexemes? (q : Char) (cs : List Char) : Option (List Lexeme) :=
  match read q ⟨[], [], .between⟩ cs with
  | ⟨_, _, .quoted _⟩ => none
  | ⟨ls, [], _⟩ => some ls.reverse
  | _ => none

@[simp] theorem read_nil (q : Char) (l : Lexer) : l.read q [] = l := rfl

@[simp] theorem read_cons (q : Char) (l : Lexer) (c : Char) (cs : List Char) :
    l.read q (c :: cs) = (l.step q c).read q cs := rfl

theorem read_append (q : Char) (l : Lexer) (cs ds : List Char) :
    l.read q (cs ++ ds) = (l.read q cs).read q ds := List.foldl_append

/-- No lexeme is open. -/
def Mode.Between (m : Mode) : Prop := m = .between

/-- A lexeme may be open, but none of quotes. -/
def Mode.Done (q : Char) : Mode → Prop
  | .between | .word => True
  | .quoted _ => False
  | .closed p => p = q ∨ p = '\''

theorem Mode.Between.done {m : Mode} (q : Char) (h : m.Between) : m.Done q := by
  rw [h]
  trivial

theorem isOrdinary_of_isDelimiter {c : Char} (h : isDelimiter c = true) : isOrdinary c = true := by
  simp [isOrdinary, h]

/-- A delimiter ends the lexeme before it. -/
theorem step_delimiter {q c : Char} {ls : List Lexeme} {enclosing : List (List Lexeme)} {m : Mode}
    (hq : isOrdinary q = false) (hc : isDelimiter c = true) (hm : m.Done q) :
    step q ⟨ls, enclosing, m⟩ c = step q ⟨ls, enclosing, .between⟩ c := by
  cases m with
  | between => rfl
  | word => simp [step, begin, hc]
  | quoted p => exact hm.elim
  | closed p =>
    have hp : c ≠ p := by
      rintro rfl
      rcases hm with rfl | rfl
      · rw [isOrdinary_of_isDelimiter hc] at hq
        cases hq
      · cases hc
    simp [step, begin, hp]

theorem read_delimited {q : Char} {cs : List Char} {ls : List Lexeme}
    {enclosing : List (List Lexeme)} {m : Mode} (hq : isOrdinary q = false)
    (hcs : cs.head?.any isDelimiter = true) (hm : m.Done q) :
    read q ⟨ls, enclosing, m⟩ cs = read q ⟨ls, enclosing, .between⟩ cs := by
  cases cs with
  | nil => cases hcs
  | cons c cs => rw [read_cons, read_cons, step_delimiter hq hcs hm]

/-! ## Stretches of text -/

/-- From any mode in `A`, the text adds its lexemes to those before it and ends in a mode in `B`. -/
def Scans (q : Char) (A : Mode → Prop) (cs : List Char) (ls : List Lexeme) (B : Mode → Prop) :
    Prop :=
  ∀ before enclosing m, A m →
    ∃ m', B m' ∧ read q ⟨before, enclosing, m⟩ cs = ⟨ls.reverse ++ before, enclosing, m'⟩

namespace Scans

variable {q : Char} {cs ds : List Char} {ls ks : List Lexeme} {A A' B B' C : Mode → Prop}

theorem nil : Scans q A [] [] A := fun _ _ m hm => ⟨m, hm, rfl⟩

theorem append (h : Scans q A cs ls B) (h' : Scans q B ds ks C) :
    Scans q A (cs ++ ds) (ls ++ ks) C := by
  intro before enclosing m hm
  obtain ⟨m₁, hm₁, hread⟩ := h before enclosing m hm
  obtain ⟨m₂, hm₂, hread'⟩ := h' (ls.reverse ++ before) enclosing m₁ hm₁
  exact ⟨m₂, hm₂, by rw [read_append, hread, hread', List.reverse_append, List.append_assoc]⟩

theorem mono (h : Scans q A cs ls B) (hA : ∀ m, A' m → A m) (hB : ∀ m, B m → B' m) :
    Scans q A' cs ls B' := by
  intro before enclosing m hm
  obtain ⟨m', hm', hread⟩ := h before enclosing m (hA m hm)
  exact ⟨m', hB m' hm', hread⟩

theorem done (h : Scans q A cs ls Mode.Between) : Scans q A cs ls (Mode.Done q) :=
  h.mono (fun _ => id) fun _ hm => hm.done q

/-- A text that starts with a delimiter can stand after any other. -/
theorem after (hq : isOrdinary q = false) (h : Scans q Mode.Between cs ls B)
    (hcs : cs.head?.any isDelimiter = true) : Scans q (Mode.Done q) cs ls B := by
  intro before enclosing m hm
  obtain ⟨m', hm', hread⟩ := h before enclosing .between rfl
  exact ⟨m', hm', by rw [read_delimited hq hcs hm, hread]⟩

theorem lexemes? (h : Scans q Mode.Between cs ls (Mode.Done q)) : Lexer.lexemes? q cs = some ls := by
  obtain ⟨m, hm, hread⟩ := h [] [] .between rfl
  rw [Lexer.lexemes?, hread, List.append_nil]
  cases m with
  | quoted p => exact hm.elim
  | between => simp
  | word => simp
  | closed p => simp

end Scans

/-! ## Words -/

/-- Characters that make up words whatever names are quoted with. -/
def isPlain (c : Char) : Bool := isOrdinary c && !isDelimiter c && c != '\''

theorem scans_word {q : Char} {w : List Char} (hq : isOrdinary q = false) (hne : w ≠ [])
    (hw : ∀ c ∈ w, isPlain c = true) :
    Scans q Mode.Between w [.word w] (Mode.Done q) := by
  have hplain {c : Char} (hc : isPlain c = true) :
      isDelimiter c = false ∧ c ≠ q ∧ c ≠ '\'' := by
    simp only [isPlain, Bool.and_eq_true, Bool.not_eq_true', bne_iff_ne] at hc
    refine ⟨hc.1.2, ?_, hc.2⟩
    rintro rfl
    rw [hq] at hc
    cases hc.1.1
  have hmore (v ds : List Char) (hds : ∀ c ∈ ds, isPlain c = true) (before : List Lexeme)
      (enclosing : List (List Lexeme)) :
      read q ⟨.word v :: before, enclosing, .word⟩ ds =
        ⟨.word (v ++ ds) :: before, enclosing, .word⟩ := by
    induction ds generalizing v with
    | nil => simp
    | cons c ds ih =>
      obtain ⟨hd, hcq, hcs⟩ := hplain (hds c (List.mem_cons_self ..))
      have hstep : step q ⟨.word v :: before, enclosing, .word⟩ c =
          ⟨.word (v ++ [c]) :: before, enclosing, .word⟩ := by
        simp [step, extend, hd, hcq, hcs]
      rw [read_cons, hstep, ih _ fun c hc => hds c (List.mem_cons_of_mem _ hc), List.append_assoc]
      rfl
  cases w with
  | nil => exact absurd rfl hne
  | cons c ds =>
    rintro before enclosing _ rfl
    obtain ⟨hd, hcq, hcs⟩ := hplain (hw c (List.mem_cons_self ..))
    have hbegin : step q ⟨before, enclosing, .between⟩ c =
        ⟨.word [c] :: before, enclosing, .word⟩ := by
      simp only [isDelimiter, Bool.or_eq_false_iff, List.contains_eq_mem, List.mem_cons,
        List.not_mem_nil, or_false, decide_eq_false_iff_not, not_or] at hd
      simp [step, begin, hcq, hcs, hd]
    refine ⟨.word, trivial, ?_⟩
    rw [read_cons, hbegin, hmore _ _ fun c hc => hw c (List.mem_cons_of_mem _ hc)]
    rfl

theorem isPlain_of_isDigit {c : Char} (h : c.isDigit = true) : isPlain c = true := by
  have hne (a : Char) (ha : a.isDigit = false) : c ≠ a := by
    rintro rfl
    rw [h] at ha
    cases ha
  have hdelimiter : isDelimiter c = false := by
    simp only [isDelimiter, Char.isWhitespace, Bool.or_eq_false_iff, decide_eq_false_iff_not,
      List.contains_eq_mem, List.mem_cons, List.not_mem_nil, or_false, not_or]
    exact ⟨⟨⟨⟨hne _ rfl, hne _ rfl⟩, hne _ rfl⟩, hne _ rfl⟩, hne _ rfl, hne _ rfl, hne _ rfl,
      hne _ rfl⟩
  have hquotes : ['"', '[', ']', '\x60'].contains c = false := by
    simp only [List.contains_eq_mem, List.mem_cons, List.not_mem_nil, or_false,
      decide_eq_false_iff_not, not_or]
    exact ⟨hne _ rfl, hne _ rfl, hne _ rfl, hne _ rfl⟩
  have hrange : 32 ≤ c.toNat ∧ c.toNat ≤ 126 := by
    simp only [Char.isDigit, Bool.and_eq_true, decide_eq_true_eq, UInt32.le_iff_toNat_le] at h
    have hval : c.toNat = c.val.toNat := rfl
    rw [hval]
    exact ⟨Nat.le_trans (by decide) h.1, Nat.le_trans h.2 (by decide)⟩
  simp only [isPlain, isOrdinary, hdelimiter, hquotes, hrange.1, hrange.2, Bool.and_eq_true,
    bne_iff_ne, ne_eq]
  exact ⟨⟨by simp, rfl⟩, hne _ rfl⟩

theorem scans_numeral {q : Char} (hq : isOrdinary q = false) (n : Nat) :
    Scans q Mode.Between (toString n).toList [.word (toString n).toList] (Mode.Done q) :=
  scans_word hq (by rw [Nat.toString_eq_repr, Nat.repr, String.toList_ofList]; exact Nat.toDigits_ne_nil)
    fun _ hc => isPlain_of_isDigit (Placeholder.isDigit_of_mem_toString hc)

theorem scans_placeholder (d : Dialect) {q : Char} (hq : isOrdinary q = false) (n : Nat) :
    Scans q Mode.Between (d.placeholder n).toList [.word (d.placeholder n).toList]
      (Mode.Done q) := by
  obtain ⟨c, ds, hp, hc, hds⟩ := Placeholder.toList_placeholder d n
  rw [hp]
  refine scans_word hq (List.cons_ne_nil _ _) fun a ha => ?_
  rcases List.mem_cons.1 ha with rfl | ha
  · simp only [Placeholder.isMark, Bool.or_eq_true, beq_iff_eq] at hc
    rcases hc with rfl | rfl <;> decide
  · exact isPlain_of_isDigit (hds a ha)

/-! ## Names -/

/-- The lexemes of a name: its parts with dots between them. -/
def ofName (n : List Char) : List Lexeme :=
  [Lexeme.dot].intercalate ((Identifier.parts n).map fun p => [.name p])

theorem parts_ne_nil (n : List Char) : Identifier.parts n ≠ [] := by
  cases n with
  | nil => simp [Identifier.parts]
  | cons c cs =>
    rw [Identifier.parts]
    split
    · simp
    · split <;> simp

theorem mem_ofName {n : List Char} {l : Lexeme} (h : l ∈ ofName n) :
    l = .dot ∨ ∃ p, l = .name p := by
  unfold ofName at h
  generalize Identifier.parts n = ps at h
  induction ps with
  | nil => cases h
  | cons p ps ih =>
    cases ps with
    | nil =>
      rw [List.map_cons, List.map_nil, List.intercalate_singleton, List.mem_singleton] at h
      exact .inr ⟨p, h⟩
    | cons p' ps =>
      rw [List.map_cons, List.map_cons, List.intercalate_cons_cons, List.append_assoc,
        List.mem_append, List.mem_append, List.mem_singleton, List.mem_singleton] at h
      rcases h with h | h | h
      · exact .inr ⟨p, h⟩
      · exact .inl h
      · exact ih h

theorem scans_quotePart (q : Char) (part : List Char) :
    Scans q Mode.Between (Identifier.quotePart q part) [.name part] (Mode.Done q) := by
  have hmore (v : List Char) (before : List Lexeme) (enclosing : List (List Lexeme)) :
      read q ⟨.name v :: before, enclosing, .quoted q⟩ (Identifier.doubled q part) =
        ⟨.name (v ++ part) :: before, enclosing, .quoted q⟩ := by
    induction part generalizing v with
    | nil => simp [Identifier.doubled]
    | cons c cs ih =>
      have hc : Identifier.doubled q (c :: cs) =
          (if c = q then [q, c] else [c]) ++ Identifier.doubled q cs := rfl
      have hstep : read q ⟨.name v :: before, enclosing, .quoted q⟩ (if c = q then [q, c] else [c]) =
          ⟨.name (v ++ [c]) :: before, enclosing, .quoted q⟩ := by
        split
        · rename_i hcq
          simp [step, extend, hcq]
        · rename_i hcq
          simp [step, extend, hcq]
      rw [hc, read_append, hstep, ih, List.append_assoc]
      rfl
  rintro before enclosing _ rfl
  rw [Identifier.quotePart, List.cons_append, read_cons]
  have hstep : step q ⟨before, enclosing, .between⟩ q =
      ⟨.name [] :: before, enclosing, .quoted q⟩ := by
    simp [step, begin]
  rw [hstep, read_append, hmore]
  exact ⟨.closed q, .inl rfl, by simp [step]⟩

theorem scans_dot {q : Char} (hq : isOrdinary q = false) :
    Scans q (Mode.Done q) ['.'] [.dot] Mode.Between := by
  refine Scans.after hq ?_ rfl
  rintro before enclosing _ rfl
  have hqd : q ≠ '.' := by
    rintro rfl
    exact absurd hq (by decide)
  exact ⟨.between, rfl, by simp [step, begin, hqd.symm]⟩

theorem scans_quote {q : Char} (hq : isOrdinary q = false) (n : List Char) :
    Scans q Mode.Between (Identifier.quoteChars q n) (ofName n) (Mode.Done q) := by
  unfold Identifier.quoteChars ofName
  have hne := parts_ne_nil n
  generalize Identifier.parts n = ps at hne
  induction ps with
  | nil => exact absurd rfl hne
  | cons p ps ih =>
    cases ps with
    | nil => simpa using scans_quotePart q p
    | cons p' ps =>
      rw [List.map_cons, List.map_cons, List.map_cons, List.map_cons, List.intercalate_cons_cons,
        List.intercalate_cons_cons]
      exact ((scans_quotePart q p).append (scans_dot hq)).append (ih (by simp))

/-! ## Fixed phrases -/

/-- Characters that no quotes are made of. -/
def isBare (c : Char) : Bool := isOrdinary c && c != '\''

/-- A phrase without quotes is the same to every dialect. -/
theorem read_bare {q : Char} (hq : isOrdinary q = false) {l : Lexer} {cs : List Char}
    (hl : l.mode = .between ∨ l.mode = .word) (hcs : cs.all isBare = true) :
    l.read q cs = l.read '"' cs := by
  induction cs generalizing l with
  | nil => rfl
  | cons c cs ih =>
    rw [List.all_cons, Bool.and_eq_true] at hcs
    obtain ⟨hc, hcs⟩ := hcs
    have hbare := hc
    rw [isBare, Bool.and_eq_true, bne_iff_ne] at hbare
    have hcq : c ≠ q := by
      rintro rfl
      rw [hq] at hbare
      cases hbare.1
    have hcd : c ≠ '"' := by
      rintro rfl
      exact absurd hbare.1 (by decide)
    -- The character is neither of the quotes, so both lexers begin alike.
    have hbegin : l.begin q c = l.begin '"' c := by
      simp only [begin, hcq, hcd, if_false]
    have hmode : (l.begin '"' c).mode = .between ∨ (l.begin '"' c).mode = .word := by
      unfold begin
      rw [if_neg hcd, if_neg hbare.2]
      split
      · exact .inl rfl
      · split
        · split
          · exact .inl rfl
          · exact .inl rfl
        · split
          · exact .inl rfl
          · split
            · exact .inl rfl
            · split
              · exact .inl rfl
              · exact .inr rfl
    have hstep : l.step q c = l.step '"' c ∧
        ((l.step '"' c).mode = .between ∨ (l.step '"' c).mode = .word) := by
      rcases hl with hl | hl
      · rw [step, step, hl]
        exact ⟨hbegin, hmode⟩
      · rw [step, step, hl]
        simp only [hcq, hcd, hbare.2, decide_false, Bool.or_false]
        split
        · exact ⟨hbegin, hmode⟩
        · exact ⟨rfl, .inr rfl⟩
    rw [read_cons, read_cons, hstep.1]
    exact ih hstep.2 hcs

/-- A phrase with its lexemes and the mode that it ends in. -/
structure Spells (s : String) (ls : List Lexeme) (m : Mode) : Prop where
  bare : s.toList.all isBare = true
  reads : ∀ before enclosing, read '"' ⟨before, enclosing, .between⟩ s.toList =
    ⟨ls.reverse ++ before, enclosing, m⟩

/-- A phrase that ends with an opening parenthesis, or goes on from there. -/
structure Opens (s : String) (before inside : List Lexeme) : Prop where
  bare : s.toList.all isBare = true
  reads : ∀ ls enclosing, read '"' ⟨ls, enclosing, .between⟩ s.toList =
    ⟨inside.reverse, (before.reverse ++ ls) :: enclosing, .between⟩

/-- A phrase that starts with a closing parenthesis. -/
structure Closes (s : String) (after : List Lexeme) : Prop where
  bare : s.toList.all isBare = true
  delimited : s.toList.head?.any isDelimiter = true
  reads : ∀ ls outer enclosing, read '"' ⟨ls, outer :: enclosing, .between⟩ s.toList =
    ⟨after.reverse ++ .group ls.reverse :: outer, enclosing, .between⟩

section

variable {q : Char} (hq : isOrdinary q = false)

include hq

theorem Spells.scans {s : String} {ls : List Lexeme} {m : Mode} (h : Spells s ls m) :
    Scans q Mode.Between s.toList ls (· = m) := by
  rintro before enclosing _ rfl
  exact ⟨m, rfl, by rw [read_bare hq (.inl rfl) h.bare, h.reads]⟩

theorem Spells.lexemes? {s : String} {ls : List Lexeme} (h : Spells s ls .word) :
    Lexer.lexemes? q s.toList = some ls := by
  refine Scans.lexemes? ((h.scans hq).mono (fun _ => id) ?_)
  rintro _ rfl
  trivial

theorem Scans.enclosed {o c : String} {cs : List Char} {before inside ls after : List Lexeme}
    (ho : Opens o before inside) (h : Scans q Mode.Between cs ls (Mode.Done q))
    (hc : Closes c after) :
    Scans q Mode.Between (o.toList ++ cs ++ c.toList) (before ++ .group (inside ++ ls) :: after)
      Mode.Between := by
  rintro ns enclosing _ rfl
  obtain ⟨m, hm, hread⟩ := h inside.reverse ((before.reverse ++ ns) :: enclosing) .between rfl
  refine ⟨.between, rfl, ?_⟩
  rw [List.append_assoc, read_append, read_bare hq (.inl rfl) ho.bare, ho.reads, read_append, hread,
    read_delimited hq hc.delimited hm, read_bare hq (.inl rfl) hc.bare, hc.reads]
  simp

end

end Lexer

/-! ## From the inside out -/

mutual

/-- What `f` makes of what stands in a group, given what it makes of the groups in it. -/
def Lexeme.fold {α : Type} (f : List (Lexeme × Option α) → α) : Lexeme → Option α
  | .group inner => some (f (Lexeme.foldAll f inner))
  | .word _ | .name _ | .string _ | .comma | .dot => none

def Lexeme.foldAll {α : Type} (f : List (Lexeme × Option α) → α) :
    List Lexeme → List (Lexeme × Option α)
  | [] => []
  | l :: ls => (l, l.fold f) :: Lexeme.foldAll f ls

end

namespace Lexeme

variable {α : Type} (f : List (Lexeme × Option α) → α)

theorem foldAll_append (ls ks : List Lexeme) : foldAll f (ls ++ ks) = foldAll f ls ++ foldAll f ks := by
  induction ls with
  | nil => rfl
  | cons l ls ih => rw [List.cons_append, foldAll, foldAll, ih, List.cons_append]

end Lexeme

end SqlMapper
