import PathCover.Proofs.Grammar.Shows

/-!
# Calm readers

A reader is calm as long as no limit was hit, nothing was reported and few looks were spent on the
next token.  This module says what a calm reader has in view, given the tokens that are left, and
what its basic operations make of it.
-/

namespace PathCover.Tree

open Token (Lexeme)
open Grammar (Sign)

/-- A reader without limits that has reported nothing and has spent at most `most` looks since its
last token. -/
structure Reader.Calm (reader : Reader) (most : Nat) : Prop where
  unlimited : reader.limits = .none
  free : reader.stuck = false
  within : reader.exceeded = none
  silent : reader.report = []
  patient : reader.looks ≤ most

namespace Reader.Calm

variable {reader : Reader} {most : Nat}

theorem mono {more : Nat} (calm : reader.Calm most) (atMost : most ≤ more) :
    reader.Calm more :=
  { calm with patient := Nat.le_trans calm.patient atMost }

theorem spend (calm : reader.Calm most) (few : most < patience) :
    reader.spend.Calm (most + 1) := by
  have looks := calm.patient
  refine ⟨calm.unlimited, ?_, calm.within, calm.silent, Nat.succ_le_succ looks⟩
  simp only [Reader.spend, calm.free, Bool.false_or, decide_eq_false_iff_not]
  omega

theorem step (calm : reader.Calm most) : reader.step.Calm 0 := by
  refine ⟨by simpa using calm.unlimited, by simpa using calm.free, ?_,
    by simpa using calm.silent, Nat.le_refl 0⟩
  simp [Reader.step, Reader.isSpent, calm.unlimited, Limits.none, calm.within]

theorem placeBlanks (calm : reader.Calm most) : reader.placeBlanks.Calm most :=
  ⟨by simpa using calm.unlimited, by simpa using calm.free, by simpa using calm.within,
    by simpa using calm.silent, by simpa using calm.patient⟩

theorem mayOpen (calm : reader.Calm most) (depth : Nat) :
    (Tree.mayOpen depth).run reader = (true, reader) := by
  simp [Tree.mayOpen, StateT.run, calm.unlimited, Limits.none]

theorem hasEnded (calm : reader.Calm most) : reader.hasEnded = reader.lexemes.isEmpty := by
  simp [Reader.hasEnded, calm.within, Reader.lexemes]

end Reader.Calm

/-- What a run arrives at: a value with some property, and a calm reader in front of `more`. -/
structure Arrives {α : Type} (result : α × Reader) (more : List Lexeme) (most : Nat)
    (property : α → Prop) : Prop where
  holds : property result.1
  left : result.2.lexemes = more
  calm : result.2.Calm most

namespace Arrives

variable {α β : Type} {reader : Reader} {more more' : List Lexeme} {most most' : Nat}
variable {property : α → Prop} {property' : β → Prop}

theorem bind {first : Reading α} {next : α → Reading β}
    (arrives : Arrives (first.run reader) more most property)
    (onward : ∀ value later, property value → later.lexemes = more → later.Calm most →
      Arrives ((next value).run later) more' most' property') :
    Arrives ((first >>= next).run reader) more' most' property' :=
  onward _ _ arrives.holds arrives.left arrives.calm

theorem pure {value : α} (holds : property value) (left : reader.lexemes = more)
    (calm : reader.Calm most) :
    Arrives ((Pure.pure value : Reading α).run reader) more most property :=
  ⟨holds, left, calm⟩

end Arrives

/-! ## What is next -/

section Next

variable {reader : Reader} {lexeme second : Lexeme} {more : List Lexeme}

/-- The next lexeme belongs to a leaf. -/
theorem head_of_lexemes (starts : reader.lexemes = lexeme :: more) :
    ∃ leaf, reader.rest.head? = some leaf ∧ leaf.lexeme = lexeme ∧
      reader.step.lexemes = more := by
  obtain ⟨leaf, rest, split, same, others⟩ := List.map_eq_cons_iff.mp starts
  refine ⟨leaf, by rw [split]; rfl, same, ?_⟩
  rw [Reader.lexemes_step, starts, List.tail_cons]

/-- The next leaf is the sign that is next. -/
theorem leaf_of_sign {kind : TokenKind} (sign : Sign kind) {leaf : Leaf}
    (starts : reader.lexemes = sign.lexeme :: more) (next : reader.rest.head? = some leaf) :
    leaf.kind = kind ∧ leaf.lexeme = sign.lexeme ∧ reader.step.lexemes = more := by
  obtain ⟨found, isNext, same, left⟩ := head_of_lexemes starts
  cases isNext.symm.trans next
  exact ⟨Leaf.kind_of_sign same, same, left⟩

theorem head_of_sign {kind : TokenKind} (sign : Sign kind)
    (starts : reader.lexemes = sign.lexeme :: more) :
    ∃ leaf, reader.rest.head? = some leaf ∧ leaf.kind = kind ∧ leaf.lexeme = sign.lexeme ∧
      reader.step.lexemes = more := by
  obtain ⟨leaf, next, -, -⟩ := head_of_lexemes starts
  exact ⟨leaf, next, leaf_of_sign sign starts next⟩

/-- The next leaf is in view if its kind is accepted. -/
theorem filter_of_lexemes (accepted : TokenKind → Bool)
    (starts : reader.lexemes = lexeme :: more) (accepts : accepted lexeme.kind = true) :
    ∃ leaf, reader.rest.head?.filter (accepted ·.kind) = some leaf ∧
      reader.rest.head? = some leaf ∧ leaf.lexeme = lexeme := by
  obtain ⟨leaf, next, same, left⟩ := head_of_lexemes starts
  refine ⟨leaf, ?_, next, same⟩
  rw [next, Option.filter_eq_some_iff]
  exact ⟨rfl, by rw [← Leaf.kind_lexeme, same]; exact accepts⟩

/-- Nothing is in view if what is next is not of the accepted kinds. -/
theorem filter_eq_none (accepted : TokenKind → Bool) (left : reader.lexemes = more)
    (refuses : ∀ next ∈ more.head?, accepted next.kind = false) :
    reader.rest.head?.filter (accepted ·.kind) = none := by
  rw [Option.filter_eq_none_iff]
  intro leaf next accepts
  have refused := refuses leaf.lexeme (by rw [← left, Reader.lexemes, List.head?_map, next]; rfl)
  rw [Leaf.kind_lexeme, accepts] at refused
  cases refused

theorem second_eq (reader : Reader) : reader.rest[1]? = reader.step.rest.head? := by
  rw [Reader.rest_step, List.head?_tail]

/-- The token after the next one is not of a kind that the one behind the next is not of. -/
theorem second_eq_none {kind : TokenKind}
    (starts : reader.lexemes = lexeme :: more) (refuses : ∀ next ∈ more.head?, next.kind ≠ kind) :
    reader.rest[1]?.filter (·.kind = kind) = none := by
  rw [second_eq]
  refine filter_eq_none (fun other => decide (other = kind)) ?_
    (fun next isNext => decide_eq_false (refuses next isNext))
  rw [Reader.lexemes_step, starts, List.tail_cons]

theorem eat_complete {kind : TokenKind} {most : Nat} (sign : Sign kind)
    (starts : reader.lexemes = sign.lexeme :: more) (calm : reader.Calm most)
    (few : most < patience) :
    Arrives ((eat kind).run reader) more 0
      (fun found => ∃ leaf : Leaf, found = some leaf ∧ leaf.lexeme = sign.lexeme) := by
  obtain ⟨leaf, inView, -, same⟩ :=
    filter_of_lexemes (fun other => decide (other = kind)) starts sign.admits
  rw [run_eat, inView]
  refine ⟨⟨leaf, rfl, same⟩, ?_, (calm.spend few).step⟩
  rw [Reader.lexemes_step, Reader.lexemes_spend, starts, List.tail_cons]

theorem eat_refuses {kind : TokenKind} {most : Nat} (left : reader.lexemes = more)
    (refuses : ∀ next ∈ more.head?, next.kind ≠ kind) (calm : reader.Calm most)
    (few : most < patience) :
    Arrives ((eat kind).run reader) more (most + 1) (· = none) := by
  have outOfView := filter_eq_none (fun other => decide (other = kind)) left
    (fun next isNext => decide_eq_false (refuses next isNext))
  rw [run_eat, outOfView]
  exact ⟨rfl, left, calm.spend few⟩

end Next

end PathCover.Tree
