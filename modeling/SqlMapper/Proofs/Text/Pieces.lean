import Mathlib.Data.List.Chain
import SqlMapper.Proofs.Text.Placeholder
import SqlMapper.Query.Fragment.Run

/-!
# SqlMapper.Proofs.Text.Pieces

The placeholders in the text of pieces (`Rendered.inStep`).

Every parameter is one placeholder if the rest of the pieces has no marks and none that follows a
parameter begins with a digit. For `$1` and `10` would else be read as `$110`.
-/

namespace SqlMapper

open Placeholder

/-- A dialect whose own SQL has no marks but those of its placeholders. -/
structure Dialect.Plain (d : Dialect) : Prop where
  quoteChar : isMark d.quoteChar = false
  bitwiseXor : ∀ s ∈ d.bitwiseXor, NoMark s.toList
  limitForOffset : ∀ s ∈ d.limitForOffset, NoMark s.toList
  likeEscape : NoMark d.likeEscape.toList

namespace Piece

def isParam (p : Piece) : Bool := p.param?.isSome

/-- Whether the piece is text that does not begin with a digit. -/
def isSeparator : Piece → Bool
  | text s => s.toList.head?.any fun c => !c.isDigit
  | _ => false

def Plain : Piece → Prop
  | text s => NoMark s.toList
  | name s => NoMark s.toList
  | param _ => True

/-- One piece after another leaves the first one readable. -/
def Apart (p q : Piece) : Prop := p.isParam = true → q.isSeparator = true

/-- Pieces whose text has its parameters for placeholders, and no others. -/
structure Readable (ps : List Piece) : Prop where
  plain : ∀ p ∈ ps, p.Plain
  apart : ps.IsChain Apart

theorem Readable.nil : Readable [] := ⟨by simp, .nil⟩

theorem Readable.singleton {p : Piece} (h : p.Plain) : Readable [p] :=
  ⟨by simpa using h, .singleton p⟩

theorem Readable.append {ps qs : List Piece} (hp : Readable ps) (hq : Readable qs)
    (h : (∀ p ∈ ps.getLast?, p.isParam = false) ∨ ∀ q ∈ qs.head?, q.isSeparator = true) :
    Readable (ps ++ qs) where
  plain p hmem := by
    rcases List.mem_append.1 hmem with hmem | hmem
    · exact hp.plain p hmem
    · exact hq.plain p hmem
  apart := by
    refine hp.apart.append hq.apart fun p hlast q hhead hparam => ?_
    rcases h with h | h
    · rw [h p hlast] at hparam
      cases hparam
    · exact h q hhead

theorem Readable.text {s : String} {ps : List Piece} (hs : NoMark s.toList) (h : Readable ps) :
    Readable (.text s :: ps) :=
  (Readable.singleton (p := .text s) hs).append h (.inl (by simp [isParam, param?]))

theorem Readable.name {s : String} {ps : List Piece} (hs : NoMark s.toList) (h : Readable ps) :
    Readable (.name s :: ps) :=
  (Readable.singleton (p := .name s) hs).append h (.inl (by simp [isParam, param?]))

/-- The number of parameters among pieces. -/
def count (ps : List Piece) : Nat := (ps.filterMap param?).length

@[simp] theorem count_nil : count [] = 0 := rfl
@[simp] theorem count_text (s : String) (ps : List Piece) : count (text s :: ps) = count ps := rfl
@[simp] theorem count_name (s : String) (ps : List Piece) : count (name s :: ps) = count ps := rfl
@[simp] theorem count_param (v : Value) (ps : List Piece) :
    count (param v :: ps) = count ps + 1 := rfl

theorem texts_append (d : Dialect) (n : Nat) (ps qs : List Piece) :
    texts d n (ps ++ qs) = texts d n ps ++ texts d (n + count ps) qs := by
  induction ps generalizing n with
  | nil => simp [texts]
  | cons p ps ih =>
    cases p with
    | text s => simp [texts, ih]
    | name s => simp [texts, ih]
    | param v => simp [texts, ih, Nat.add_assoc, Nat.add_comm 1]

theorem noDigitFirst_texts {d : Dialect} {n : Nat} {ps : List Piece}
    (h : ∀ q ∈ ps.head?, q.isSeparator = true) : NoDigitFirst (String.join (texts d n ps)).toList := by
  cases ps with
  | nil => simp [texts, NoDigitFirst]
  | cons p ps =>
    have hp := h p rfl
    cases p with
    | name s => cases hp
    | param v => cases hp
    | text s =>
      rw [texts, String.join_cons, String.toList_append]
      intro c hc
      rw [isSeparator] at hp
      cases hs : s.toList with
      | nil => rw [hs] at hp; cases hp
      | cons a cs =>
        rw [hs] at hp hc
        cases hc
        simpa using hp

/-- The placeholders of readable pieces are those of their parameters, in order. -/
theorem scan_texts {d : Dialect} (hd : d.Plain) {ps : List Piece} (h : Readable ps) (n : Nat) :
    scan (String.join (texts d n ps)).toList =
      (List.range (count ps)).map fun k => d.placeholder (n + k + 1) := by
  induction ps generalizing n with
  | nil => simp [texts, scan]
  | cons p ps ih =>
    obtain ⟨happart, hchain⟩ := List.isChain_cons.1 h.apart
    have hplain := h.plain p (List.mem_cons_self ..)
    have hrest : Readable ps := ⟨fun q hq => h.plain q (List.mem_cons_of_mem _ hq), hchain⟩
    cases p with
    | text s => rw [texts, String.join_cons, String.toList_append, scan_append hplain, ih hrest,
        count_text]
    | name s =>
      rw [texts, String.join_cons, String.toList_append, Dialect.quote,
        scan_append (Identifier.noMark_quote hplain hd.quoteChar), ih hrest, count_name]
    | param v =>
      have hnext : NoDigitFirst (String.join (texts d (n + 1) ps)).toList :=
        noDigitFirst_texts fun q hq => happart q hq rfl
      rw [texts, String.join_cons, String.toList_append, scan_placeholder d _ hnext, ih hrest,
        count_param, List.range_succ_eq_map, List.map_cons, List.map_map]
      congr 1
      exact List.map_congr_left fun k _ => congrArg d.placeholder (by omega)

end Piece

/-- A statement in step with its pieces. Read from the left, its placeholders are those that the
dialect writes for its parameters, and each parameter among the pieces is the one whose placeholder
stands in its place. -/
structure Rendered.InStep (d : Dialect) (r : Rendered) (ps : List Piece) : Prop where
  pieces : r = .ofPieces d ps
  placeholders :
    ofText r.sql = (List.range r.params.length).map fun k => d.placeholder (k + 1)
  parameter : ∀ front v back, ps = front ++ .param v :: back →
    ∃ before after, r.sql = before ++ d.placeholder (Piece.count front + 1) ++ after ∧
      r.params[Piece.count front]? = some v ∧
      ofText before = (List.range (Piece.count front)).map fun k => d.placeholder (k + 1)

namespace Rendered

open Piece

variable {d : Dialect} {ps : List Piece}

theorem ofText_sql (hd : d.Plain) (h : Readable ps) :
    ofText (ofPieces d ps).sql =
      (List.range (ofPieces d ps).params.length).map fun k => d.placeholder (k + 1) := by
  have hscan := scan_texts hd h 0
  simp only [Nat.zero_add] at hscan
  exact hscan

theorem inStep (hd : d.Plain) (h : Readable ps) : (ofPieces d ps).InStep d ps where
  pieces := rfl
  placeholders := ofText_sql hd h
  parameter front v back hps := by
    subst hps
    have hfront : Readable front :=
      ⟨fun p hp => h.plain p (List.mem_append_left _ hp), h.apart.left_of_append⟩
    refine ⟨String.join (texts d 0 front), String.join (texts d (count front + 1) back), ?_, ?_, ?_⟩
    · rw [ofPieces, texts_append, String.join_append, Nat.zero_add, texts, String.join_cons,
        String.append_assoc]
    · simp [ofPieces, count, param?]
    · exact ofText_sql hd hfront

end Rendered

end SqlMapper
