import Mathlib.Data.List.Forall2
import SqlMapper.Proofs.Fragment.Run
import SqlMapper.Proofs.Text.Pieces
import SqlMapper.Proofs.Text.Reserved
import SqlMapper.Query.Spelling

/-!
# SqlMapper.Proofs.Fragment.Lexed

The lexemes of what fragments put out.

`Lexed d A P B fs` is a triple: in every place, what a run of the fragments `fs` puts out takes a
lexer from any mode in `A` to one in `B`, and the lexemes that it adds have the property `P`. The
property that is asked for most is `NoClause`: outside of parentheses there is no word that would
end the operand of a set operator.
-/

namespace SqlMapper

open Lexer

/-! ## Text of pieces -/

namespace Piece

/-- The text of pieces that `n` parameters stand before. -/
def chars (d : Dialect) (n : Nat) (ps : List Piece) : List Char := (String.join (texts d n ps)).toList

variable (d : Dialect) (n : Nat)

@[simp] theorem chars_nil : chars d n [] = [] := by simp [chars, texts]

theorem chars_text (s : String) : chars d n [text s] = s.toList := by simp [chars, texts]

theorem chars_name (s : String) :
    chars d n [name s] = Identifier.quoteChars d.quoteChar s.toList := by
  simp [chars, texts, Dialect.quote, Identifier.quote]

theorem chars_param (v : Value) : chars d n [param v] = (d.placeholder (n + 1)).toList := by
  simp [chars, texts]

theorem chars_append (ps qs : List Piece) :
    chars d n (ps ++ qs) = chars d n ps ++ chars d (n + count ps) qs := by
  rw [chars, texts_append, String.join_append, String.toList_append]
  rfl

end Piece

/-! ## Text that can be read -/

/-- No set operator, ordering, limit or offset outside of parentheses. -/
def NoClause (ls : List Lexeme) : Prop := ∀ l ∈ ls, l.isClause = false

instance (ls : List Lexeme) : Decidable (NoClause ls) := List.decidableBAll _ ls

theorem NoClause.append {ls ks : List Lexeme} (hl : NoClause ls) (hk : NoClause ks) :
    NoClause (ls ++ ks) := by
  intro l h
  exact (List.mem_append.1 h).elim (hl l) (hk l)

theorem NoClause.cons {l : Lexeme} {ls : List Lexeme} (hl : l.isClause = false) (hls : NoClause ls) :
    NoClause (l :: ls) := List.forall_mem_cons.2 ⟨hl, hls⟩

theorem noClause_ofName (n : List Char) : NoClause (ofName n) := by
  intro l hl
  obtain rfl | ⟨p, rfl⟩ := mem_ofName hl <;> rfl

theorem noClause_word {w : List Char} (h : Reserved.of? w = none) : NoClause [.word w] := by
  intro l hl
  rw [List.mem_singleton.1 hl, Lexeme.isClause, Lexeme.reserved?, h]
  rfl

/-- SQL that closes its quotes and parentheses and holds no clause outside of them. -/
def SelfContained (q : Char) (s : String) : Prop :=
  ∃ ls, NoClause ls ∧ Scans q Mode.Between s.toList ls (Mode.Done q)

/-- A dialect whose own SQL can be read, and that quotes names with a character of its own. -/
structure Dialect.Legible (d : Dialect) : Prop where
  quoteChar : isOrdinary d.quoteChar = false
  bitwiseXor : ∀ s ∈ d.bitwiseXor, SelfContained d.quoteChar s
  limitForOffset : ∀ s ∈ d.limitForOffset, SelfContained d.quoteChar s
  likeEscape : SelfContained d.quoteChar d.likeEscape

/-- A phrase that can follow anything, and that anything can follow. -/
structure Phrase (s : String) (ls : List Lexeme) : Prop where
  spells : Spells s ls .between
  delimited : s.toList.head?.any isDelimiter = true

theorem Phrase.blank : Phrase " " [] := ⟨⟨by decide, fun _ _ => rfl⟩, by decide⟩

theorem Phrase.comma : Phrase ", " [.comma] := ⟨⟨by decide, fun _ _ => rfl⟩, by decide⟩

theorem Phrase.naming : Phrase " AS " [Reserved.type.lexeme] :=
  ⟨⟨by decide, fun _ _ => rfl⟩, by decide⟩

theorem opens_parenthesis : Opens "(" [] [] := ⟨by decide, fun _ _ => rfl⟩

theorem closes_parenthesis : Closes ")" [] := ⟨by decide, by decide, fun _ _ _ => rfl⟩

/-! ## Lexemes of parts -/

section

variable {α : Type}

/-- One group, with what has `P` in it. -/
def Grouping (P : List Lexeme → Prop) (ls : List Lexeme) : Prop := ∃ ks, P ks ∧ ls = [.group ks]

def Leading (ss : List Lexeme) (P : List Lexeme → Prop) (ls : List Lexeme) : Prop :=
  ∃ ks, P ks ∧ ls = ss ++ ks

def Trailing (P : List Lexeme → Prop) (ss ls : List Lexeme) : Prop := ∃ ks, P ks ∧ ls = ks ++ ss

/-- What has `P`, the lexemes `ss`, and what has `Q`. -/
def Joining (P : List Lexeme → Prop) (ss : List Lexeme) (Q : List Lexeme → Prop)
    (ls : List Lexeme) : Prop := ∃ ks js, P ks ∧ Q js ∧ ls = ks ++ ss ++ js

/-- What has `P` of each of the `xs`, with the lexemes `ss` between each two. -/
def Listing (P : α → List Lexeme → Prop) (xs : List α) (ss ls : List Lexeme) : Prop :=
  ∃ lss, List.Forall₂ P xs lss ∧ ls = ss.intercalate lss

theorem Listing.nil {P : α → List Lexeme → Prop} {ss : List Lexeme} : Listing P [] ss [] :=
  ⟨[], .nil, rfl⟩

theorem Listing.singleton {P : α → List Lexeme → Prop} {x : α} {ss ls : List Lexeme} (h : P x ls) :
    Listing P [x] ss ls := ⟨[ls], .cons h .nil, by simp⟩

theorem Listing.cons {P : α → List Lexeme → Prop} {x y : α} {xs : List α} {ss ls ks : List Lexeme}
    (h : P x ls) (hks : Listing P (y :: xs) ss ks) : Listing P (x :: y :: xs) ss (ls ++ ss ++ ks) := by
  obtain ⟨kss, hkss, rfl⟩ := hks
  cases hkss with
  | cons hk hrest =>
    exact ⟨_, .cons h (.cons hk hrest), (List.intercalate_cons_cons ..).symm⟩

theorem NoClause.listing {P : α → List Lexeme → Prop} {xs : List α} {ss ls : List Lexeme}
    (hss : NoClause ss) (hP : ∀ x ls, P x ls → NoClause ls) (h : Listing P xs ss ls) :
    NoClause ls := by
  obtain ⟨lss, hlss, rfl⟩ := h
  induction hlss with
  | nil => exact fun _ h => nomatch h
  | cons hx hrest ih =>
    cases hrest with
    | nil =>
      rw [List.intercalate_singleton]
      exact hP _ _ hx
    | cons hy hrest =>
      rw [List.intercalate_cons_cons]
      exact ((hP _ _ hx).append hss).append ih

end

namespace Fragment

open Rendering

/-- What the fragments put out takes a lexer from `A` to `B` and adds lexemes that have `P`. -/
def Lexed (d : Dialect) (A : Mode → Prop) (P : List Lexeme → Prop) (B : Mode → Prop)
    (fs : List Fragment) : Prop :=
  ∀ r ps r', Puts fs r ps r' → ∀ n, ∃ ls, P ls ∧ Scans d.quoteChar A (Piece.chars d n ps) ls B

namespace Lexed

variable {d : Dialect} {A A' B B' C : Mode → Prop} {P Q R : List Lexeme → Prop}
  {fs gs : List Fragment}

/-! ## Single fragments -/

theorem nil (h : P []) : Lexed d A P A [] := by
  intro r ps r' hp n
  obtain ⟨-, rfl⟩ := puts_nil.1 hp
  exact ⟨[], h, by rw [Piece.chars_nil]; exact .nil⟩

theorem refuse (e : Error) : Lexed d A P B [refuse e] :=
  fun _ _ _ hp => absurd hp.1 not_runs_refuse

theorem text {s : String} {ls : List Lexeme} (h : Scans d.quoteChar A s.toList ls B) (hP : P ls) :
    Lexed d A P B [text s] := by
  intro r ps r' hp n
  obtain ⟨-, rfl⟩ := puts_text.1 hp
  exact ⟨ls, hP, by rwa [Piece.chars_text]⟩

/-- Two texts in a row are one. -/
theorem merge {s t : String} (h : Lexed d A P B [Fragment.text s, Fragment.text t]) :
    Lexed d A P B [Fragment.text (s ++ t)] := by
  intro r ps r' hp n
  obtain ⟨hr, rfl⟩ := puts_text.1 hp
  have hputs : Puts [Fragment.text s, Fragment.text t] r [.text s, .text t]
      ((r.put (.text s)).put (.text t)) :=
    puts_cons.2 ⟨_, _, _, puts_text.2 ⟨rfl, rfl⟩, puts_text.2 ⟨rfl, rfl⟩, rfl⟩
  obtain ⟨ls, hls, hscans⟩ := h _ _ _ hputs n
  refine ⟨ls, hls, ?_⟩
  rw [← List.singleton_append, Piece.chars_append, Piece.chars_text, Piece.chars_text] at hscans
  rwa [Piece.chars_text, String.toList_append]

theorem mono (h : Lexed d A P B fs) (hP : ∀ ls, P ls → Q ls) : Lexed d A Q B fs := by
  intro r ps r' hp n
  obtain ⟨ls, hls, hscans⟩ := h r ps r' hp n
  exact ⟨ls, hP ls hls, hscans⟩

theorem done (h : Lexed d A P Mode.Between fs) : Lexed d A P (Mode.Done d.quoteChar) fs := by
  intro r ps r' hp n
  obtain ⟨ls, hls, hscans⟩ := h r ps r' hp n
  exact ⟨ls, hls, hscans.done⟩

theorem append (hf : Lexed d A P B fs) (hg : Lexed d B Q C gs)
    (h : ∀ ls ks, P ls → Q ks → R (ls ++ ks)) : Lexed d A R C (fs ++ gs) := by
  intro r ps r' hp n
  obtain ⟨m, qs, qs', hpf, hpg, rfl⟩ := puts_append.1 hp
  obtain ⟨ls, hls, hscans⟩ := hf _ _ _ hpf n
  obtain ⟨ks, hks, hscans'⟩ := hg _ _ _ hpg (n + Piece.count qs)
  exact ⟨ls ++ ks, h ls ks hls hks, by rw [Piece.chars_append]; exact hscans.append hscans'⟩

theorem nested {s : Scope} (h : Lexed d A P B fs) : Lexed d A P B [nested s fs] := by
  intro r ps r' hp
  obtain ⟨m, hm, -⟩ := puts_nested.1 hp
  exact h _ _ _ hm

theorem enlisting (os : List Origin) (h : Lexed d A P B fs) :
    Lexed d A P B (os.map enlist ++ fs) := by
  intro r ps r' hp
  exact h _ _ _ (puts_enlist_append.1 hp)

/-- Nothing outside of parentheses is added to what the parts hold. -/
theorem andThen (hf : Lexed d A NoClause B fs) (hg : Lexed d B NoClause C gs) :
    Lexed d A NoClause C (fs ++ gs) :=
  hf.append hg fun _ _ => NoClause.append

theorem anything (h : Lexed d A P B fs) : Lexed d A (fun _ => True) B fs := h.mono fun _ _ => trivial

theorem beside (hf : Lexed d A P B fs) (hg : Lexed d B Q C gs) :
    Lexed d A (fun _ => True) C (fs ++ gs) :=
  hf.append hg fun _ _ _ _ => trivial

section

variable (hd : d.Legible)

include hd

theorem phrase {s : String} {ls : List Lexeme} (hs : Spells s ls .between) :
    Lexed d Mode.Between (· = ls) Mode.Between [Fragment.text s] :=
  .text (hs.scans hd.quoteChar) rfl

/-- Fragments that start with a delimiter can stand after anything. -/
theorem after {s : String} (hs : s.toList.head?.any isDelimiter = true)
    (h : Lexed d Mode.Between P B (Fragment.text s :: fs)) :
    Lexed d (Mode.Done d.quoteChar) P B (Fragment.text s :: fs) := by
  intro r ps r' hp n
  obtain ⟨ls, hls, hscans⟩ := h r ps r' hp n
  refine ⟨ls, hls, hscans.after hd.quoteChar ?_⟩
  obtain ⟨_, _, _, htext, -, rfl⟩ := puts_cons.1 hp
  obtain ⟨-, rfl⟩ := puts_text.1 htext
  rw [Piece.chars_append, Piece.chars_text]
  cases hcs : s.toList with
  | nil =>
    rw [hcs] at hs
    cases hs
  | cons c cs =>
    rw [hcs] at hs
    exact hs

theorem lead {s : String} {ls : List Lexeme} (hs : Spells s ls .between)
    (h : Lexed d Mode.Between P B fs) :
    Lexed d Mode.Between (Leading ls P) B (Fragment.text s :: fs) :=
  (phrase hd hs).append h fun _ ks hls hks => ⟨ks, hks, by rw [hls]⟩

theorem suffix {s : String} {ls : List Lexeme} (hs : Phrase s ls) :
    Lexed d (Mode.Done d.quoteChar) (· = ls) Mode.Between [Fragment.text s] :=
  after hd hs.delimited (phrase hd hs.spells)

theorem joining {s : String} {ss : List Lexeme} (hs : Phrase s ss)
    (hf : Lexed d A P (Mode.Done d.quoteChar) fs) (hg : Lexed d Mode.Between Q C gs) :
    Lexed d A (Joining P ss Q) C (fs ++ [Fragment.text s] ++ gs) := by
  have htrailing : Lexed d A (Trailing P ss) Mode.Between (fs ++ [Fragment.text s]) :=
    hf.append (suffix hd hs) fun ks _ hks hss => ⟨ks, hks, by rw [hss]⟩
  refine htrailing.append hg ?_
  rintro _ js ⟨ks, hks, rfl⟩ hjs
  exact ⟨ks, js, hks, hjs, rfl⟩

/-- Two stretches with a sign between them, set off by blanks. -/
theorem signed {s : String} {ss : List Lexeme}
    (hs : Lexed d Mode.Between (· = ss) (Mode.Done d.quoteChar) [Fragment.text s])
    (hf : Lexed d A P (Mode.Done d.quoteChar) fs) (hg : Lexed d Mode.Between Q C gs) :
    Lexed d A (Joining P ss Q) C
      (fs ++ [Fragment.text " ", Fragment.text s, Fragment.text " "] ++ gs) := by
  have h := joining hd .blank hf (joining hd .blank hs hg)
  rw [List.append_assoc] at h ⊢
  refine h.mono ?_
  rintro _ ⟨ks, _, hks, ⟨_, js, rfl, hjs, rfl⟩, rfl⟩
  exact ⟨ks, js, hks, hjs, by simp⟩

theorem listing {α : Type} {s : String} {ss : List Lexeme} (hs : Phrase s ss)
    {R : α → List Lexeme → Prop} {xs : List α} {fss : List (List Fragment)}
    (h : List.Forall₂ (fun x fs => Lexed d Mode.Between (R x) (Mode.Done d.quoteChar) fs) xs fss) :
    Lexed d Mode.Between (Listing R xs ss) (Mode.Done d.quoteChar) (separated s fss) := by
  induction h with
  | nil => exact Lexed.done (nil .nil)
  | @cons x fs xs fss hx hrest ih =>
    cases hrest with
    | nil =>
      rw [separated, List.intercalate_singleton]
      exact hx.mono fun _ => .singleton
    | cons hy hrest =>
      rw [separated, List.intercalate_cons_cons]
      refine (joining hd hs hx ih).mono ?_
      rintro _ ⟨ls, ks, hls, hks, rfl⟩
      exact .cons hls hks

theorem identifier (s : String) :
    Lexed d Mode.Between (· = ofName s.toList) (Mode.Done d.quoteChar) [identifier s] := by
  intro r ps r' hp n
  obtain ⟨-, rfl⟩ := puts_identifier.1 hp
  exact ⟨_, rfl, by rw [Piece.chars_name]; exact scans_quote hd.quoteChar _⟩

theorem param (v : Value) :
    Lexed d Mode.Between (fun ls => ∃ n, ls = [.word (d.placeholder n).toList])
      (Mode.Done d.quoteChar) [param v] := by
  intro r ps r' hp n
  obtain ⟨-, rfl⟩ := puts_param.1 hp
  exact ⟨_, ⟨n + 1, rfl⟩, by rw [Piece.chars_param]; exact scans_placeholder d hd.quoteChar _⟩

theorem pieces_dotted (n : Nat) (s : String) (rest : List Piece) {ls : List Lexeme}
    (h : Scans d.quoteChar Mode.Between (Piece.chars d n rest) ls B) :
    Scans d.quoteChar Mode.Between (Piece.chars d n (.name s :: .text "." :: rest))
      (ofName s.toList ++ .dot :: ls) B := by
  have hsplit : Piece.chars d n (.name s :: .text "." :: rest) =
      Identifier.quoteChars d.quoteChar s.toList ++ (['.'] ++ Piece.chars d n rest) := by
    rw [← Piece.chars_name d n, ← List.singleton_append, Piece.chars_append,
      ← List.singleton_append (l := rest), Piece.chars_append, Piece.chars_text]
    rfl
  rw [hsplit]
  exact (scans_quote hd.quoteChar _).append ((scans_dot hd.quoteChar).append h)

/-- A qualifier is a name and a dot, or nothing. -/
theorem qualifier (q : Qualifier) :
    Lexed d Mode.Between (fun ls => ls = [] ∨ ∃ s, ls = ofName s ++ [Lexeme.dot]) Mode.Between
      [qualifier q] := by
  intro r ps r' hp n
  cases hbare : r.scope.bare with
  | true =>
    obtain ⟨-, rfl⟩ := (puts_qualifier_bare hbare).1 hp
    exact ⟨[], .inl rfl, by rw [Piece.chars_nil]; exact .nil⟩
  | false =>
    obtain ⟨-, rfl⟩ := (puts_qualifier hbare).1 hp
    refine ⟨_, .inr ⟨_, rfl⟩, pieces_dotted hd n _ [] ?_⟩
    rw [Piece.chars_nil]
    exact .nil

theorem proposed (field : String) :
    Lexed d Mode.Between (fun ls => ∃ s, ls = ofName s) (Mode.Done d.quoteChar)
      [proposed field] := by
  intro r ps r' hp n
  obtain ⟨m, f, -, -, rfl, -⟩ := puts_proposed.1 hp
  exact ⟨_, ⟨_, rfl⟩, by rw [Piece.chars_name]; exact scans_quote hd.quoteChar _⟩

theorem modelTable (m : ModelSource) :
    Lexed d Mode.Between NoClause (Mode.Done d.quoteChar) [modelTable m] := by
  intro r ps r' hp n
  obtain ⟨-, rfl⟩ := puts_modelTable.1 hp
  have htable := scans_quote hd.quoteChar m.model.table.toList
  rw [← List.singleton_append, Piece.chars_append, Piece.chars_name]
  split
  · rw [Piece.chars_nil, List.append_nil]
    exact ⟨_, noClause_ofName _, htable⟩
  · rw [← List.singleton_append (l := [Piece.name _]), Piece.chars_append, Piece.chars_text,
      Piece.chars_name]
    exact ⟨_, (noClause_ofName _).append (NoClause.append (by decide) (noClause_ofName _)),
      htable.append (((Phrase.naming.spells.scans hd.quoteChar).after hd.quoteChar (by decide)).append
        (scans_quote hd.quoteChar _))⟩

/-- Fragments between two phrases are in a group. -/
theorem enclosed {o c : String} {before inside after : List Lexeme} (ho : Opens o before inside)
    (hc : Closes c after) (h : Lexed d Mode.Between P (Mode.Done d.quoteChar) fs) :
    Lexed d Mode.Between (fun ls => ∃ ks, P ks ∧ ls = before ++ .group (inside ++ ks) :: after)
      Mode.Between (enclosed o fs c) := by
  intro r ps r' hp n
  obtain ⟨_, _, _, hopening, hrest, rfl⟩ := puts_cons.1 hp
  obtain ⟨_, qs, _, hbody, hclosing, rfl⟩ := puts_append.1 hrest
  obtain ⟨-, rfl⟩ := puts_text.1 hopening
  obtain ⟨-, rfl⟩ := puts_text.1 hclosing
  rw [Piece.chars_append, Piece.chars_append, Piece.chars_text, Piece.chars_text, ← List.append_assoc]
  obtain ⟨ls, hls, hscans⟩ := h _ _ _ hbody (n + Piece.count [.text o])
  exact ⟨_, ⟨ls, hls, rfl⟩, Scans.enclosed hd.quoteChar ho hscans hc⟩

theorem parenthesized (h : Lexed d Mode.Between P (Mode.Done d.quoteChar) fs) :
    Lexed d Mode.Between (Grouping P) Mode.Between (parenthesized fs) :=
  enclosed hd opens_parenthesis closes_parenthesis h

theorem equated (child childColumn parent parentColumn : String) :
    Lexed d (Mode.Done d.quoteChar) NoClause Mode.Between
      [equated child childColumn parent parentColumn] := by
  intro r ps r' hp n
  obtain ⟨c, p, -, -, rfl, -⟩ := puts_equated.1 hp
  have ho : Opens " ON (" [.word "ON".toList] [] := ⟨by decide, fun _ _ => rfl⟩
  have hsign : Spells " = " [.word "=".toList] .between := ⟨by decide, fun _ _ => rfl⟩
  have hquote := scans_quote hd.quoteChar
  have hparent := pieces_dotted hd n p [.name parentColumn]
    (by rw [Piece.chars_name]; exact hquote parentColumn.toList)
  have hchild := pieces_dotted hd n c (.name childColumn :: .text " = " ::
    [.name p, .text ".", .name parentColumn]) (B := Mode.Done d.quoteChar) (by
      rw [← List.singleton_append, Piece.chars_append, Piece.chars_name,
        ← List.singleton_append (l := [Piece.name p, _, _]), Piece.chars_append, Piece.chars_text]
      exact (hquote childColumn.toList).append
        (((hsign.scans hd.quoteChar).after hd.quoteChar (by decide)).append hparent))
  have hsplit : equation c childColumn p parentColumn = [Piece.text " ON ("] ++
      ([Piece.name c, .text ".", .name childColumn, .text " = ", .name p, .text ".",
        .name parentColumn] ++ [Piece.text ")"]) := rfl
  rw [hsplit, Piece.chars_append, Piece.chars_append, Piece.chars_text, Piece.chars_text,
    ← List.append_assoc]
  refine ⟨_, ?_, (Scans.enclosed hd.quoteChar ho hchild closes_parenthesis).after hd.quoteChar (by simp; decide)⟩
  intro l hl
  rcases List.mem_cons.1 hl with rfl | hl
  · decide
  · rw [List.mem_singleton.1 hl]
    rfl

end

end Lexed

end Fragment

end SqlMapper
